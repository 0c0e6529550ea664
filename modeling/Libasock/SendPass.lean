import Libasock.GuardedRuns
import Libasock.RegisteredConnections
import Libasock.ServerReferences
import Libasock.ServiceReferences

/-!
One send pass over the registered connections, `asock_server_send_unsent_data` and
its twin of the service, which have the same words. A step is one operation of
the worker on a connection or its output queue, or a call of a user that comes in
between; `asock_write` waits for the queue's lock. What is done to an object is
recorded with whether the object was freed by then.
-/

namespace Libasock.SendPass
open ByteBlocks GuardedRuns NumberReuse ReturnCodes TsqueueModel ConnectionObjects WorkerWorld
  ReferenceCounts

/-- `left` connections are still to be visited after this one; the queue of `con` is locked from
`measuring` to `unlocking`, which knows how many bytes are to be dequeued then. At `dropping` the
close after a failed `send()` is between `close()` and `asock_destroy_asock`. -/
inductive Pc where
  | visiting (left : Nat)
  | measuring (left : Nat) (con : ConRef)
  | trying (left : Nat) (con : ConRef) (data : List Byte)
  | closing (left : Nat) (con : ConRef)
  | dropping (left : Nat) (con : ConRef) (target : ConRef) (index : Nat)
  | unlocking (left : Nat) (con : ConRef) (sent : Option Nat)
  | dequeuing (left : Nat) (con : ConRef) (sent : Nat)
  deriving DecidableEq

inductive Operation where
  | headLock | headSize | head | read | headUnlock | dequeue
  deriving DecidableEq

structure Touch where
  con : ConRef
  operation : Operation
  released : Bool
  deriving DecidableEq

structure Pass where
  world : World
  pc : Pc
  status : ServiceStatus
  workerId : Int
  touches : List Touch
  /-- Connections freed, with their queues, while the pass held the lock of the output queue. -/
  torn : List ConRef

inductive Label where
  | turn (answer : SendAnswer)
  | userWrite (con : ConRef) (src : List Byte) (answer : Allocation)
  | userDestroy (con : ConRef)
  | userConnect (con : ConRef)
  | userAccept

def isReleased (world : World) (con : ConRef) : Bool :=
  (world.objects con).any fun object => object.released

/-- The connection whose output queue the pass has locked. -/
def lockedQueue : Pc → Option ConRef
  | .measuring _ con | .trying _ con _ | .closing _ con | .dropping _ con _ _
  | .unlocking _ con _ => some con
  | _ => none

def Pass.goto (pass : Pass) (pc : Pc) : Pass := { pass with pc := pc }

def Pass.touch (pass : Pass) (con : ConRef) (operation : Operation) : Pass :=
  { pass with touches := pass.touches ++ [⟨con, operation, isReleased pass.world con⟩] }

/-- The world after a call that may have freed the connection whose queue is locked. -/
def Pass.drop (pass : Pass) (world : World) : Pass :=
  { pass with
    world := world
    torn := pass.torn ++ (lockedQueue pass.pc).toList.filter fun con =>
      isReleased world con && !isReleased pass.world con }

/-- The ids of the registered connections, by which `index_of_con` looks. -/
def connectionIds (world : World) : List Nat :=
  world.mConnections.items.filterMap fun con =>
    (world.objects con).map fun object => object.con.mConnectionId

/-- `index_of_con` reads the registered connections up to the one it looks for. -/
def Pass.search (pass : Pass) (object : Object) : Pass :=
  if object.con.mMasterId = pass.workerId then
    let found := (connectionIds pass.world).findIdx? (· == object.con.mConnectionId)
    let scanned := match found with
      | some index => pass.world.mConnections.items.take (index + 1)
      | none => pass.world.mConnections.items
    scanned.foldl (fun pass con => pass.touch con .read) pass
  else pass

def begin (status : ServiceStatus) (workerId : Int) (world : World) : Pass :=
  ⟨world, .visiting world.mConnections.items.length, status, workerId, [], []⟩

def afterShut (left : Nat) (con : ConRef) : Option (ConRef × Nat) → Pc
  | none => .unlocking left con none
  | some (target, index) => .dropping left con target index

/-- The worker's next operation. -/
def turn (pass : Pass) (answer : SendAnswer) : Option Pass :=
  match pass.pc with
  | .visiting 0 => none
  | .visiting (left + 1) => do
      let con ← pass.world.mConnections.items[left]?
      some ((pass.touch con .headLock).goto (.measuring left con))
  | .measuring left con => do
      let object ← pass.world.objects con
      let sized := pass.touch con .headSize
      match object.con.offered with
      | none => some (sized.goto (.unlocking left con none))
      | some data => some ((sized.touch con .head).goto (.trying left con data))
  | .trying left con data => do
      let object ← pass.world.objects con
      let looked := (pass.touch con .read).search object
      match object.con.trySendData pass.status pass.workerId (connectionIds pass.world) answer with
      | .refused => some (looked.goto (.unlocking left con none))
      | .sent count =>
          if count ≤ data.length then some (looked.goto (.unlocking left con (some count))) else none
      | .closing => some (looked.goto (.closing left con))
  | .closing left con => do
      let object ← pass.world.objects con
      let fd ← object.con.mSockDesc
      let shut := pass.world.shut fd.number
      some ({ pass.touch con .read with world := shut.2 }.goto (afterShut left con shut.1))
  | .dropping left con target index =>
      some ((pass.drop (pass.world.dropAt target index)).goto (.unlocking left con none))
  | .unlocking left con sent =>
      let unlocked := pass.touch con .headUnlock
      match sent with
      | none => some (unlocked.goto (.visiting left))
      | some count => some (unlocked.goto (.dequeuing left con count))
  | .dequeuing left con count => do
      let object ← pass.world.objects con
      match object.con.pop count with
      | .error _ => none
      | .ok after =>
          let popped := pass.touch con .dequeue
          some ({ popped with world := pass.world.put con { object with con := after } }.goto
            (.visiting left))

def userWrite (pass : Pass) (con : ConRef) (src : List Byte) (answer : Allocation) :
    Option Pass := do
  let object ← pass.world.objects con
  match object.con.write src answer with
  | .error _ => none
  | .ok (_, after) => some { pass with world := pass.world.put con { object with con := after } }

/-- `asock_server_accept` when a connection waits; a service's users have no such call. -/
def userAccept (pass : Pass) : Option Pass :=
  (pass.world.mNewConnections.items[0]?).map fun con => { pass with
    world := (pass.world.setNew (pass.world.mNewConnections.erase 0)).setHeld
      (con :: pass.world.held) }

def step (pass : Pass) : Label → Option Pass
  | .turn answer => turn pass answer
  | .userWrite con src answer =>
      if con ∈ pass.world.held ∧ lockedQueue pass.pc ≠ some con then userWrite pass con src answer
      else none
  | .userDestroy con => (pass.world.userDestroy con).map pass.drop
  | .userConnect con =>
      if con ∈ pass.world.held then some { pass with world := pass.world.counterIncr con } else none
  | .userAccept => userAccept pass

/-- No operation on a freed object, no queue destroyed under its lock. -/
structure Clean (pass : Pass) : Prop where
  touches : ∀ touch ∈ pass.touches, touch.released = false
  torn : pass.torn = []

/-- The drop in a close after a failed `send()` leaves the connection whose queue is locked a
reference. -/
def Spared (pass : Pass) : Pc → Prop
  | .dropping _ con target _ => target = con → 2 ≤ counter pass.world con
  | _ => True

/-- While the pass holds a queue's lock, neither the close after a failed `send()` nor a user drops
the last reference of that connection. -/
def Retained (pass : Pass) : Label → Prop
  | .turn _ => Spared pass pass.pc
  | .userDestroy con => lockedQueue pass.pc = some con → 2 ≤ counter pass.world con
  | _ => True

instance (pass : Pass) : (pc : Pc) → Decidable (Spared pass pc)
  | .dropping _ con target _ =>
      inferInstanceAs (Decidable (target = con → 2 ≤ counter pass.world con))
  | .visiting _ | .measuring .. | .trying .. | .closing .. | .unlocking .. | .dequeuing .. =>
      inferInstanceAs (Decidable True)

instance (pass : Pass) (label : Label) : Decidable (Retained pass label) :=
  match label with
  | .turn _ => inferInstanceAs (Decidable (Spared pass pass.pc))
  | .userDestroy con => inferInstanceAs (Decidable
      (lockedQueue pass.pc = some con → 2 ≤ counter pass.world con))
  | .userWrite .. | .userConnect _ | .userAccept => inferInstanceAs (Decidable True)

/-- Every entry of the two lists and every connection a user holds has its reference counted. -/
structure Steady (world : World) : Prop where
  freed : FreedAtZero world
  enough : ∀ con, (world.mConnections.items.count con + world.mNewConnections.items.count con +
    world.held.count con : Int) ≤ counter world con

section Steps

variable {pass after : Pass} {label : Label} {con : ConRef}

/-- The connection a visit works on, as long as the worker has not closed it. -/
def visited : Pc → Option ConRef
  | .measuring _ con | .trying _ con _ | .closing _ con | .unlocking _ con (some _)
  | .dequeuing _ con _ => some con
  | _ => none

/-- So many entries the list still has while the pass is there. -/
def needed : Pc → Nat
  | .visiting left | .unlocking left .. | .dequeuing left .. => left
  | .measuring left _ | .trying left .. | .closing left _ | .dropping left .. => left + 1

/-- The entry a close is about to drop. -/
def aim : Pc → Option (ConRef × Nat)
  | .dropping _ _ target index => some (target, index)
  | _ => none

/-- Reads of registered connections and operations on the one the pass is at. -/
def Near (pass : Pass) (touch : Touch) : Prop :=
  touch.released = isReleased pass.world touch.con ∧
    (touch.con ∈ pass.world.mConnections.items ∨ lockedQueue pass.pc = some touch.con ∨
      visited pass.pc = some touch.con)

/-- Everything one step can do. -/
inductive Moved (pass : Pass) : Label → Pass → Prop where
  | worked {answer : SendAnswer} (next : Pc) (more : List Touch)
      (free : aim pass.pc = none) (aims : aim next = none)
      (near : ∀ touch ∈ more, Near pass touch)
      (needs : needed next ≤ needed pass.pc)
      (visits : ∀ con, visited next = some con →
        con ∈ pass.world.mConnections.items ∨ visited pass.pc = some con)
      (locks : ∀ con, lockedQueue next = some con →
        con ∈ pass.world.mConnections.items ∨ lockedQueue pass.pc = some con) :
      Moved pass (.turn answer)
        { pass with touches := pass.touches ++ more, pc := next }
  | shut {answer : SendAnswer} (left : Nat) (con : ConRef) (number : Nat)
      (pc : pass.pc = .closing left con) :
      Moved pass (.turn answer) { pass with
        touches := pass.touches ++ [⟨con, .read, isReleased pass.world con⟩]
        world := (pass.world.shut number).2
        pc := afterShut left con (pass.world.shut number).1 }
  | closed {answer : SendAnswer} (left : Nat) (con target : ConRef) (index : Nat)
      (pc : pass.pc = .dropping left con target index) :
      Moved pass (.turn answer)
        ((pass.drop (pass.world.dropAt target index)).goto (.unlocking left con none))
  | popped {answer : SendAnswer} (left : Nat) (con : ConRef) (count : Nat) (object : Object)
      (queue : Tsqueue) (pc : pass.pc = .dequeuing left con count)
      (found : pass.world.objects con = some object) :
      Moved pass (.turn answer) { pass with
        touches := pass.touches ++ [⟨con, .dequeue, isReleased pass.world con⟩]
        world := pass.world.put con { object with con := { object.con with mOutQueue := queue } }
        pc := .visiting left }
  | wrote {con : ConRef} {src : List Byte} {answer : Allocation} (object : Object)
      (queue : Tsqueue) (found : pass.world.objects con = some object) :
      Moved pass (.userWrite con src answer) { pass with
        world := pass.world.put con { object with con := { object.con with mOutQueue := queue } } }
  | dropped {con : ConRef} (world : World) (destroys : pass.world.userDestroy con = some world) :
      Moved pass (.userDestroy con) (pass.drop world)
  | connected {con : ConRef} (held : con ∈ pass.world.held) :
      Moved pass (.userConnect con) { pass with world := pass.world.counterIncr con }
  | accepted (con : ConRef) (here : pass.world.mNewConnections.items[0]? = some con) :
      Moved pass .userAccept { pass with
        world := (pass.world.setNew (pass.world.mNewConnections.erase 0)).setHeld
          (con :: pass.world.held) }

def reads (pass : Pass) (cons : List ConRef) : List Touch :=
  cons.map fun con => ⟨con, .read, isReleased pass.world con⟩

theorem searched (pass : Pass) (object : Object) : ∃ cons : List ConRef,
    (∀ con ∈ cons, con ∈ pass.world.mConnections.items) ∧
    pass.search object = { pass with touches := pass.touches ++ reads pass cons } := by
  have all : ∀ (cons : List ConRef) (pass : Pass),
      cons.foldl (fun pass con => pass.touch con .read) pass =
        { pass with touches := pass.touches ++ reads pass cons } := by
    intro cons
    induction cons with
    | nil =>
        intro pass
        simp [reads]
    | cons con rest ih =>
        intro pass
        rw [List.foldl_cons, ih]
        simp [Pass.touch, reads]
  unfold Pass.search
  split
  · refine ⟨_, fun con member => ?_, all _ pass⟩
    split at member
    · exact List.mem_of_mem_take member
    · exact member
  · refine ⟨[], fun con member => ?_, by simp [reads]⟩
    cases member

theorem pop_shape {con after : Asock} {count : Nat} (pops : con.pop count = .ok after) :
    ∃ queue, after = { con with mOutQueue := queue } := by
  obtain ⟨result, _, same⟩ := sequenced pops
  exact ⟨result.2.2, (Except.ok.inj same).symm⟩

theorem write_shape {con after : Asock} {src : List Byte} {answer : Allocation} {count : Nat}
    (writes : con.write src answer = .ok (count, after)) :
    ∃ queue, after = { con with mOutQueue := queue } := by
  obtain ⟨result, _, same⟩ := sequenced writes
  cases same
  exact ⟨result.2, rfl⟩

/-- An operation on the connection whose queue is locked. -/
theorem near_locked {operation : Operation} (locked : lockedQueue pass.pc = some con) :
    ∀ touch ∈ [(⟨con, operation, isReleased pass.world con⟩ : Touch)], Near pass touch := by
  intro touch member
  cases List.mem_singleton.mp member
  exact ⟨rfl, .inr (.inl locked)⟩

/-- The pass goes to the entry it asks for and locks its queue. -/
theorem visiting_moved {answer : SendAnswer} {left : Nat} (pc : pass.pc = .visiting (left + 1))
    (turned : turn pass answer = some after) : Moved pass (.turn answer) after := by
  simp only [turn, pc, Option.bind_eq_bind, Option.bind_eq_some_iff] at turned
  obtain ⟨con, here, same⟩ := turned
  cases same
  have listed := List.mem_of_getElem? here
  refine .worked (.measuring left con) [⟨con, .headLock, isReleased pass.world con⟩]
    (by rw [pc]; rfl) rfl ?_ (by rw [pc]; exact Nat.le_refl _) ?_ ?_
  · intro touch member
    cases List.mem_singleton.mp member
    exact ⟨rfl, .inl listed⟩
  · intro other same
    cases same
    exact .inl listed
  · intro other same
    cases same
    exact .inl listed

theorem measuring_moved {answer : SendAnswer} {left : Nat} {con : ConRef}
    (pc : pass.pc = .measuring left con) (turned : turn pass answer = some after) :
    Moved pass (.turn answer) after := by
  have locked : lockedQueue pass.pc = some con := by rw [pc]; rfl
  have visits : visited pass.pc = some con := by rw [pc]; rfl
  simp only [turn, pc, Option.bind_eq_bind, Option.bind_eq_some_iff] at turned
  obtain ⟨object, found, result⟩ := turned
  split at result
  · cases result
    refine .worked (.unlocking left con none) [⟨con, .headSize, isReleased pass.world con⟩]
      (by rw [pc]; rfl) rfl (near_locked locked) (by rw [pc]; exact Nat.le_succ _)
      (fun _ same => by cases same) fun other same => ?_
    cases same
    exact .inr locked
  · rename_i data _
    cases result
    have both : (pass.touch con .headSize).touch con .head = { pass with
        touches := pass.touches ++ ([⟨con, .headSize, isReleased pass.world con⟩] ++
          [⟨con, .head, isReleased pass.world con⟩]) } := by
      simp [Pass.touch]
    rw [both]
    refine .worked (.trying left con data) _ (by rw [pc]; rfl) rfl ?_
      (by rw [pc]; exact Nat.le_refl _) ?_ ?_
    · intro touch member
      rcases List.mem_append.mp member with first | second
      · exact near_locked locked touch first
      · exact near_locked locked touch second
    · intro other same
      cases same
      exact .inr visits
    · intro other same
      cases same
      exact .inr locked

/-- The three results of `try_send_data` differ only in where the pass goes from here. -/
theorem trying_moved {answer : SendAnswer} {left : Nat} {con : ConRef} {data : List Byte}
    (pc : pass.pc = .trying left con data) (turned : turn pass answer = some after) :
    Moved pass (.turn answer) after := by
  have locked : lockedQueue pass.pc = some con := by rw [pc]; rfl
  have visits : visited pass.pc = some con := by rw [pc]; rfl
  simp only [turn, pc, Option.bind_eq_bind, Option.bind_eq_some_iff] at turned
  obtain ⟨object, found, result⟩ := turned
  obtain ⟨cons, listed, searches⟩ := searched (pass.touch con .read) object
  rw [searches] at result
  have goes : ∀ next, aim next = none → needed next ≤ left + 1 →
      (visited next = some con ∨ visited next = none) → lockedQueue next = some con →
      Moved pass (.turn answer) { pass with
        touches := pass.touches ++
          (reads pass [con] ++ reads (pass.touch con .read) cons)
        pc := next } := by
    intro next aims needs stays holds
    refine .worked next _ (by rw [pc]; rfl) aims ?_ (by rw [pc]; exact needs) ?_ ?_
    · intro touch member
      rcases List.mem_append.mp member with first | second
      · exact near_locked locked touch first
      · -- what `index_of_con` reads on its way is listed
        obtain ⟨other, inside, rfl⟩ := List.mem_map.mp second
        exact ⟨rfl, .inl (listed other inside)⟩
    · intro other same
      rcases stays with keeps | leaves
      · rw [keeps] at same
        cases same
        exact .inr visits
      · rw [leaves] at same
        cases same
    · intro other same
      rw [holds] at same
      cases same
      exact .inr locked
  have joined : (pass.touch con .read).touches ++ reads (pass.touch con .read) cons =
      pass.touches ++ (reads pass [con] ++ reads (pass.touch con .read) cons) :=
    List.append_assoc ..
  rw [joined] at result
  split at result
  · cases result
    exact goes (.unlocking left con none) rfl (Nat.le_succ _) (.inr rfl) rfl
  · split at result
    · rename_i count _ _
      cases result
      exact goes (.unlocking left con (some count)) rfl (Nat.le_succ _) (.inl rfl) rfl
    · cases result
  · cases result
    exact goes (.closing left con) rfl (Nat.le_refl _) (.inl rfl) rfl

theorem unlocking_moved {answer : SendAnswer} {left : Nat} {con : ConRef} {sent : Option Nat}
    (pc : pass.pc = .unlocking left con sent) (turned : turn pass answer = some after) :
    Moved pass (.turn answer) after := by
  have locked : lockedQueue pass.pc = some con := by rw [pc]; rfl
  simp only [turn, pc] at turned
  cases sent with
  | none =>
      cases turned
      exact .worked (.visiting left) [⟨con, .headUnlock, isReleased pass.world con⟩]
        (by rw [pc]; rfl) rfl (near_locked locked) (by rw [pc]; exact Nat.le_refl _)
        (fun _ same => by cases same) (fun _ same => by cases same)
  | some count =>
      cases turned
      refine .worked (.dequeuing left con count) [⟨con, .headUnlock, isReleased pass.world con⟩]
        (by rw [pc]; rfl) rfl (near_locked locked) (by rw [pc]; exact Nat.le_refl _)
        (fun other same => ?_) (fun _ same => by cases same)
      cases same
      exact .inr (by rw [pc]; rfl)

theorem turn_moved {answer : SendAnswer} (turned : turn pass answer = some after) :
    Moved pass (.turn answer) after := by
  cases pc : pass.pc with
  | visiting left =>
      cases left with
      | zero => simp [turn, pc] at turned
      | succ left => exact visiting_moved pc turned
  | measuring left con => exact measuring_moved pc turned
  | trying left con data => exact trying_moved pc turned
  | closing left con =>
      simp only [turn, pc, Option.bind_eq_bind, Option.bind_eq_some_iff] at turned
      obtain ⟨object, found, fd, remembers, same⟩ := turned
      cases same
      exact .shut left con fd.number pc
  | dropping left con target index =>
      simp only [turn, pc] at turned
      cases turned
      exact .closed left con target index pc
  | unlocking left con sent => exact unlocking_moved pc turned
  | dequeuing left con count =>
      simp only [turn, pc, Option.bind_eq_bind, Option.bind_eq_some_iff] at turned
      obtain ⟨object, found, result⟩ := turned
      split at result
      · cases result
      · rename_i pops
        cases result
        obtain ⟨queue, rfl⟩ := pop_shape pops
        exact .popped left con count object queue pc found

theorem step_moved (stepped : step pass label = some after) : Moved pass label after := by
  cases label with
  | turn answer => exact turn_moved stepped
  | userWrite con src answer =>
      simp only [step] at stepped
      split at stepped
      · simp only [userWrite, Option.bind_eq_bind, Option.bind_eq_some_iff] at stepped
        obtain ⟨object, found, result⟩ := stepped
        split at result
        · cases result
        · rename_i writes
          cases result
          obtain ⟨queue, rfl⟩ := write_shape writes
          exact .wrote object queue found
      · cases stepped
  | userDestroy con =>
      obtain ⟨world, destroys, rfl⟩ := Option.map_eq_some_iff.mp stepped
      exact .dropped world destroys
  | userConnect con =>
      simp only [step] at stepped
      split at stepped
      · rename_i held
        cases stepped
        exact .connected held
      · cases stepped
  | userAccept =>
      obtain ⟨con, here, rfl⟩ := Option.map_eq_some_iff.mp stepped
      exact .accepted con here

end Steps

section Counters

variable {world : World} {con : ConRef}

theorem alive_unreleased (freed : FreedAtZero world) (positive : 0 < counter world con) :
    isReleased world con = false := by
  obtain ⟨object, found, alive, _⟩ := alive_counted freed positive
  simp [isReleased, found, alive]

theorem last_released {object : Object} (freed : FreedAtZero world)
    (found : world.objects con = some object) (none : counter world con = 0) :
    isReleased world con = true := by
  rw [counter_some found] at none
  have gone := (freed con object found).freed.mpr none
  simp [isReleased, found, gone]

theorem listed_counter (steady : Steady world) (listed : con ∈ world.mConnections.items) :
    0 < counter world con := by
  have enough := steady.enough con
  have counted := List.count_pos_iff.mpr listed
  omega

theorem held_positive (steady : Steady world) (held : con ∈ world.held) :
    0 < counter world con := by
  have enough := steady.enough con
  have counted := List.count_pos_iff.mpr held
  omega

/-- The first half of a close forgets the announcement and moves no reference. -/
theorem shut_steady (steady : Steady world) (sockd : Nat) : Steady (world.shut sockd).2 ∧
    (world.shut sockd).2.mConnections = world.mConnections ∧
    ∀ con, counter (world.shut sockd).2 con = counter world con := by
  have same := shut_references world sockd
  have lists : (world.shut sockd).2.mConnections = world.mConnections :=
    same.lists.connections.trans (forgetNew_connections world sockd)
  have counts : ∀ con, counter (world.shut sockd).2 con = counter world con := fun con =>
    (same.counters con).trans (counter_congr world con (forgetNew_objects world sockd))
  refine ⟨⟨same.freed (freed_congr steady.freed (forgetNew_objects world sockd)), fun con => ?_⟩,
    lists, counts⟩
  obtain ⟨held, _, fewer⟩ := forgetNew_lists world sockd con
  have enough := steady.enough con
  rw [counts con, lists, same.lists.new, same.lists.held, held]
  omega

/-- The second half takes the entry and its reference. -/
theorem dropAt_steady {index : Nat} (steady : Steady world)
    (here : world.mConnections.items[index]? = some con) : Steady (world.dropAt con index) ∧
      ∀ other, counter (world.dropAt con index) other =
        counter world other - if other = con then 1 else 0 := by
  have positive := listed_counter steady (List.mem_of_getElem? here)
  obtain ⟨object, found⟩ := counted_object (Int.ne_of_gt positive)
  refine ⟨⟨freed_dropAt steady.freed positive, fun other => ?_⟩,
    fun other => (dropAt_counts other found here).1⟩
  obtain ⟨level, fewer, new, held, _, _⟩ := dropAt_counts other found here
  have enough := steady.enough other
  rw [level, new, held]
  by_cases same : other = con
  · simp only [same, if_true] at fewer enough ⊢
    omega
  · simp only [same, if_false] at fewer ⊢
    omega

theorem dropAt_length {index : Nat} (here : world.mConnections.items[index]? = some con) :
    world.mConnections.items.length = (world.dropAt con index).mConnections.items.length + 1 := by
  have inside := (List.getElem?_eq_some_iff.mp here).1
  simp only [World.dropAt, setConnections_items, Connections.erase,
    (destroy_lists world con).connections, List.length_eraseIdx_of_lt inside]
  omega

theorem destroy_steady {after : World} (steady : Steady world)
    (destroys : world.userDestroy con = some after) : Steady after ∧
      after.mConnections = world.mConnections ∧
      ∀ other, counter after other = counter world other - if other = con then 1 else 0 := by
  obtain ⟨held, rfl⟩ := userDestroy_cases _ destroys
  have positive := held_positive steady held
  obtain ⟨object, found⟩ := counted_object (Int.ne_of_gt positive)
  have counts : ∀ other, counter ((world.setHeld (world.held.erase con)).destroyAsock con) other =
      counter world other - if other = con then 1 else 0 := fun other =>
    @counter_destroy (world.setHeld (world.held.erase con)) con other object found
  have lists := destroy_lists (world.setHeld (world.held.erase con)) con
  refine ⟨⟨freed_destroy (freed_congr steady.freed rfl) positive, fun other => ?_⟩,
    lists.connections, counts⟩
  have enough := steady.enough other
  rw [counts other, lists.connections, lists.new, lists.held]
  simp only [setHeld_connections, setHeld_new, setHeld_items, List.count_erase]
  by_cases same : other = con
  · subst same
    have counted := List.count_pos_iff.mpr held
    simp only [beq_self_eq_true, if_true]
    omega
  · have apart : (con == other) = false := by simpa using Ne.symm same
    simp only [apart, same, Bool.false_eq_true, if_false]
    omega

theorem put_steady {object later : Object} (steady : Steady world)
    (found : world.objects con = some object)
    (count : later.con.mRefCounter = object.con.mRefCounter)
    (released : later.released = object.released) : Steady (world.put con later) := by
  have same := same_put found count released
  refine ⟨same.freed steady.freed, fun other => ?_⟩
  rw [same.counters, same.lists.connections, same.lists.new, same.lists.held]
  exact steady.enough other

/-- The reference of an announced connection goes to the user who accepts it. -/
theorem accept_steady (steady : Steady world)
    (here : world.mNewConnections.items[0]? = some con) :
    Steady ((world.setNew (world.mNewConnections.erase 0)).setHeld (con :: world.held)) := by
  refine ⟨freed_congr steady.freed rfl, fun other => ?_⟩
  have erased := count_eraseIdx other here
  have enough := steady.enough other
  simp only [setHeld_connections, setNew_connections, setHeld_new, setNew_items, setHeld_items,
    Connections.erase, counter_setHeld, counter_setNew, List.count_cons]
  by_cases same : other = con
  · subst same
    simp only [if_true, beq_self_eq_true] at erased ⊢
    omega
  · have apart : (con == other) = false := by simpa using Ne.symm same
    simp only [same, apart, Bool.false_eq_true, if_false] at erased ⊢
    omega

end Counters

section Passes

variable {pass after : Pass} {label : Label} {con : ConRef}

/-- The connection of the visit is registered until the worker closes it, the one whose queue is
locked has a reference left, and the entry a close found stays where it was. -/
structure Kept (pass : Pass) : Prop where
  steady : Steady pass.world
  inside : needed pass.pc ≤ pass.world.mConnections.items.length
  listed : ∀ con, visited pass.pc = some con → con ∈ pass.world.mConnections.items
  alive : ∀ con, lockedQueue pass.pc = some con → 0 < counter pass.world con
  aimed : ∀ target index, aim pass.pc = some (target, index) →
    pass.world.mConnections.items[index]? = some target

theorem near_unreleased (kept : Kept pass) {touch : Touch} (near : Near pass touch) :
    touch.released = false := by
  obtain ⟨same, place⟩ := near
  rw [same]
  refine alive_unreleased kept.steady.freed ?_
  rcases place with listed | locked | visits
  · exact listed_counter kept.steady listed
  · exact kept.alive _ locked
  · exact listed_counter kept.steady (kept.listed _ visits)

theorem clean_more (clean : Clean pass) {more : List Touch} (kept : Kept pass)
    (near : ∀ touch ∈ more, Near pass touch) :
    ∀ touch ∈ pass.touches ++ more, touch.released = false := by
  intro touch member
  rcases List.mem_append.mp member with old | new
  · exact clean.touches touch old
  · exact near_unreleased kept (near touch new)

/-- What a drop tears apart is the connection whose queue is locked, if it was its last reference. -/
theorem drop_torn {world : World} (kept : Kept pass) (freed : FreedAtZero world)
    (known : ∀ con, (world.objects con).isSome = (pass.world.objects con).isSome) :
    (pass.drop world).torn = [] ↔
      pass.torn = [] ∧ ∀ con, lockedQueue pass.pc = some con → counter world con ≠ 0 := by
  simp only [Pass.drop, List.append_eq_nil_iff]
  refine and_congr_right fun _ => ?_
  cases locked : lockedQueue pass.pc with
  | none => simp
  | some con =>
      have positive := kept.alive con locked
      have whole := alive_unreleased kept.steady.freed positive
      obtain ⟨before, found⟩ := counted_object (Int.ne_of_gt positive)
      have there := known con
      rw [found, Option.isSome_some] at there
      obtain ⟨object, held⟩ := Option.isSome_iff_exists.mp there
      have gone : isReleased world con = true ↔ counter world con = 0 := by
        refine ⟨fun released => ?_, fun zero => last_released freed held zero⟩
        rw [counter_some held]
        have marked : object.released = true := by simpa [isReleased, held] using released
        exact (freed con object held).freed.mp marked
      cases released : isReleased world con with
      | true => simp [whole, released, gone.mp released]
      | false =>
          have left : counter world con ≠ 0 := fun zero => by
            rw [gone.mpr zero] at released
            cases released
          simp [whole, released, left]

/-- Up to `close()` the entry stays in the list and keeps its reference. -/
theorem shut_step {answer : SendAnswer} {left number : Nat} (kept : Kept pass)
    (pc : pass.pc = .closing left con) :
    let after := { pass with
      touches := pass.touches ++ [⟨con, .read, isReleased pass.world con⟩]
      world := (pass.world.shut number).2
      pc := afterShut left con (pass.world.shut number).1 }
    (Retained pass (.turn answer) → Kept after) ∧
      (Clean after ↔ Clean pass ∧ Retained pass (.turn answer)) := by
  intro after
  have locked : lockedQueue pass.pc = some con := by rw [pc]; rfl
  have positive := kept.alive con locked
  have free : Retained pass (.turn answer) := by simp only [Retained, Spared, pc]
  obtain ⟨steady, lists, counts⟩ := shut_steady kept.steady number
  have inside := kept.inside
  rw [pc] at inside
  have stays : needed after.pc ≤ pass.world.mConnections.items.length ∧
      visited after.pc = none ∧ lockedQueue after.pc = some con ∧
      ∀ target index, aim after.pc = some (target, index) →
        pass.world.mConnections.items[index]? = some target := by
    rcases shut_cases pass.world number with ⟨_, same⟩ | ⟨target, index, _, here, _, same⟩
    · simp only [after, same, afterShut]
      refine ⟨Nat.le_of_succ_le inside, rfl, rfl, fun _ _ impossible => ?_⟩
      cases impossible
    · simp only [after, same, afterShut]
      refine ⟨inside, rfl, rfl, fun other place aims => ?_⟩
      cases aims
      exact here
  rw [← lists] at stays
  obtain ⟨needs, leaves, holds, aimed⟩ := stays
  refine ⟨fun _ => ⟨steady, needs, fun other same => ?_, fun other same => ?_, aimed⟩,
    fun clean => ?_,
    fun ⟨clean, _⟩ => ⟨clean_more clean kept (near_locked locked), clean.torn⟩⟩
  · rw [leaves] at same
    cases same
  · rw [holds] at same
    cases same
    rw [show after.world = (pass.world.shut number).2 from rfl, counts]
    exact positive
  · exact ⟨⟨fun touch member => clean.touches touch (List.mem_append_left _ member),
      clean.torn⟩, free⟩

theorem closed_step {answer : SendAnswer} {left index : Nat} {target : ConRef} (kept : Kept pass)
    (pc : pass.pc = .dropping left con target index) :
    let after := (pass.drop (pass.world.dropAt target index)).goto (.unlocking left con none)
    (Retained pass (.turn answer) → Kept after) ∧
      (Clean after ↔ Clean pass ∧ Retained pass (.turn answer)) := by
  intro after
  have locked : lockedQueue pass.pc = some con := by rw [pc]; rfl
  have positive := kept.alive con locked
  have here := kept.aimed target index (by rw [pc]; rfl)
  obtain ⟨steady, counts⟩ := dropAt_steady kept.steady here
  have known : ∀ other, ((pass.world.dropAt target index).objects other).isSome =
      (pass.world.objects other).isSome := by
    intro other
    simp only [World.dropAt, setConnections_objects, destroy_isSome]
  have retained : Retained pass (.turn answer) ↔
      counter (pass.world.dropAt target index) con ≠ 0 := by
    simp only [Retained, Spared, pc]
    rw [counts]
    by_cases own : target = con
    · simp only [own, if_true, true_implies]
      omega
    · simp only [own, Ne.symm own, if_false, false_implies, true_iff]
      omega
  have torn : after.torn = [] ↔ pass.torn = [] ∧ Retained pass (.turn answer) := by
    have dropped := drop_torn kept steady.freed known
    rw [retained]
    simp only [pc, lockedQueue, Option.some.injEq, forall_eq'] at dropped
    exact dropped
  have inside := kept.inside
  rw [pc, dropAt_length here] at inside
  refine ⟨fun stays => ⟨steady, Nat.le_of_succ_le_succ inside,
    fun other same => ?_, fun other same => ?_, fun _ _ impossible => ?_⟩, ?_⟩
  · cases same
  · cases same
    have left := retained.mp stays
    have more : 0 ≤ counter (pass.world.dropAt target index) con := by
      rw [counts]
      split <;> omega
    have alive : 0 < counter (pass.world.dropAt target index) con := by omega
    exact alive
  · cases impossible
  · constructor
    · intro clean
      obtain ⟨whole, stays⟩ := torn.mp clean.torn
      exact ⟨⟨clean.touches, whole⟩, stays⟩
    · rintro ⟨clean, stays⟩
      exact ⟨clean.touches, torn.mpr ⟨clean.torn, stays⟩⟩

theorem dropped_step {world : World} (kept : Kept pass)
    (destroys : pass.world.userDestroy con = some world) :
    (Retained pass (.userDestroy con) → Kept (pass.drop world)) ∧
      (Clean (pass.drop world) ↔ Clean pass ∧ Retained pass (.userDestroy con)) := by
  obtain ⟨steady, lists, counts⟩ := destroy_steady kept.steady destroys
  obtain ⟨held, shape⟩ := userDestroy_cases _ destroys
  have known : ∀ other, (world.objects other).isSome = (pass.world.objects other).isSome := by
    intro other
    rw [shape]
    exact destroy_isSome
  have retained : Retained pass (.userDestroy con) ↔
      ∀ other, lockedQueue pass.pc = some other → counter world other ≠ 0 := by
    constructor
    · intro stays other locked
      have positive := kept.alive other locked
      rw [counts other]
      by_cases same : other = con
      · subst same
        have two := stays locked
        simp only [if_true]
        omega
      · simp only [same, if_false]
        omega
    · intro left locked
      have positive := kept.alive con locked
      have more := left con locked
      rw [counts con] at more
      simp only [if_true] at more
      omega
  have torn := drop_torn kept steady.freed known
  rw [← retained] at torn
  have inside : needed pass.pc ≤ world.mConnections.items.length := by
    rw [lists]
    exact kept.inside
  refine ⟨fun stays => ⟨steady, inside, fun other visits => ?_, fun other locked => ?_,
    fun target index aims => ?_⟩, ?_⟩
  · have listed := kept.listed other visits
    simp only [Pass.drop, lists]
    exact listed
  · have positive := kept.alive other locked
    have left := retained.mp stays other locked
    have level := counts other
    have alive : 0 < counter world other := by
      split at level <;> omega
    exact alive
  · simp only [Pass.drop, lists]
    exact kept.aimed target index aims
  · constructor
    · intro clean
      obtain ⟨whole, stays⟩ := torn.mp clean.torn
      exact ⟨⟨clean.touches, whole⟩, stays⟩
    · rintro ⟨clean, stays⟩
      exact ⟨clean.touches, torn.mpr ⟨clean.torn, stays⟩⟩

theorem worked_step {answer : SendAnswer} {next : Pc} {more : List Touch} (kept : Kept pass)
    (idle : aim pass.pc = none) (aims : aim next = none) (near : ∀ touch ∈ more, Near pass touch)
    (needs : needed next ≤ needed pass.pc)
    (visits : ∀ con, visited next = some con →
      con ∈ pass.world.mConnections.items ∨ visited pass.pc = some con)
    (locks : ∀ con, lockedQueue next = some con →
      con ∈ pass.world.mConnections.items ∨ lockedQueue pass.pc = some con) :
    let after := { pass with touches := pass.touches ++ more, pc := next }
    (Retained pass (.turn answer) → Kept after) ∧
      (Clean after ↔ Clean pass ∧ Retained pass (.turn answer)) := by
  intro after
  have free : Retained pass (.turn answer) := by
    cases pc : pass.pc with
    | dropping =>
        rw [pc] at idle
        cases idle
    | visiting | measuring | trying | closing | unlocking | dequeuing =>
        simp only [Retained, Spared, pc]
  refine ⟨fun _ => ⟨kept.steady, Nat.le_trans needs kept.inside, fun con same => ?_,
    fun con same => ?_, fun target index aimed => ?_⟩, fun clean => ?_,
    fun ⟨clean, _⟩ => ⟨clean_more clean kept near, clean.torn⟩⟩
  · rcases visits con same with listed | stays
    · exact listed
    · exact kept.listed con stays
  · rcases locks con same with listed | stays
    · exact listed_counter kept.steady listed
    · exact kept.alive con stays
  · rw [aims] at aimed
    cases aimed
  · exact ⟨⟨fun touch member => clean.touches touch (List.mem_append_left _ member),
      clean.torn⟩, free⟩

/-- A change of the output queue alone. -/
theorem queue_steady {object : Object} {queue : Tsqueue} (kept : Kept pass)
    (found : pass.world.objects con = some object) :
    let world := pass.world.put con
      { object with con := { object.con with mOutQueue := queue } }
    Steady world ∧ ∀ other, counter world other = counter pass.world other := by
  intro world
  have same : SameReferences pass.world world := same_put found rfl rfl
  exact ⟨put_steady kept.steady found rfl rfl, same.counters⟩

theorem popped_step {answer : SendAnswer} {left count : Nat} {object : Object} {queue : Tsqueue}
    (kept : Kept pass) (pc : pass.pc = .dequeuing left con count)
    (found : pass.world.objects con = some object) :
    let after := { pass with
      touches := pass.touches ++ [⟨con, .dequeue, isReleased pass.world con⟩]
      world := pass.world.put con { object with con := { object.con with mOutQueue := queue } }
      pc := .visiting left }
    (Retained pass (.turn answer) → Kept after) ∧
      (Clean after ↔ Clean pass ∧ Retained pass (.turn answer)) := by
  intro after
  have free : Retained pass (.turn answer) := by simp only [Retained, Spared, pc]
  have near : ∀ touch ∈ [(⟨con, .dequeue, isReleased pass.world con⟩ : Touch)],
      Near pass touch := by
    intro touch member
    cases List.mem_singleton.mp member
    exact ⟨rfl, .inr (.inr (by rw [pc]; rfl))⟩
  have inside := kept.inside
  rw [pc] at inside
  refine ⟨fun _ => ⟨(queue_steady kept found).1, inside, fun con same => ?_, fun con same => ?_,
    fun _ _ impossible => ?_⟩, fun clean => ?_, fun ⟨clean, _⟩ => ⟨clean_more clean kept near, clean.torn⟩⟩
  · cases same
  · cases same
  · cases impossible
  · exact ⟨⟨fun touch member => clean.touches touch (List.mem_append_left _ member),
      clean.torn⟩, free⟩

theorem connected_kept (kept : Kept pass) (held : con ∈ pass.world.held) :
    Kept { pass with world := pass.world.counterIncr con } := by
  have positive := held_positive kept.steady held
  obtain ⟨object, found⟩ := counted_object (Int.ne_of_gt positive)
  have lists := incr_lists pass.world con
  have counts : ∀ other, counter (pass.world.counterIncr con) other =
      counter pass.world other + if other = con then 1 else 0 := fun other => counter_incr found
  have more : ∀ other, counter pass.world other ≤ counter (pass.world.counterIncr con) other := by
    intro other
    rw [counts other]
    split <;> omega
  have inside : needed pass.pc ≤ (pass.world.counterIncr con).mConnections.items.length := by
    rw [lists.connections]
    exact kept.inside
  refine ⟨⟨freed_incr kept.steady.freed positive, fun other => ?_⟩, inside, fun other visits => ?_,
    fun other locked => Int.lt_of_lt_of_le (kept.alive other locked) (more other),
    fun target index aims => ?_⟩
  · simp only
    rw [lists.connections, lists.new, lists.held]
    exact Int.le_trans (kept.steady.enough other) (more other)
  · simp only
    rw [lists.connections]
    exact kept.listed other visits
  · simp only
    rw [lists.connections]
    exact kept.aimed target index aims

/-- A step of the pass is clean exactly when it meets the condition. -/
theorem step_clean (kept : Kept pass) (stepped : step pass label = some after) :
    (Retained pass label → Kept after) ∧ (Clean after ↔ Clean pass ∧ Retained pass label) := by
  cases step_moved stepped with
  | worked next more free aims near needs visits locks =>
      exact worked_step kept free aims near needs visits locks
  | shut left con number pc => exact shut_step kept pc
  | closed left con target index pc => exact closed_step kept pc
  | popped left con count object queue pc found => exact popped_step kept pc found
  | @wrote con src answer object queue found =>
      obtain ⟨steady, counts⟩ := @queue_steady pass con object queue kept found
      refine ⟨fun _ => ⟨steady, kept.inside, kept.listed, fun other locked => ?_, kept.aimed⟩,
        fun clean => ⟨⟨clean.touches, clean.torn⟩, trivial⟩,
        fun ⟨clean, _⟩ => ⟨clean.touches, clean.torn⟩⟩
      rw [counts other]
      exact kept.alive other locked
  | dropped world destroys => exact dropped_step kept destroys
  | connected held =>
      exact ⟨fun _ => connected_kept kept held,
        fun clean => ⟨⟨clean.touches, clean.torn⟩, trivial⟩,
        fun ⟨clean, _⟩ => ⟨clean.touches, clean.torn⟩⟩
  | accepted con here =>
      exact ⟨fun _ => ⟨accept_steady kept.steady here, kept.inside, kept.listed, kept.alive,
          kept.aimed⟩,
        fun clean => ⟨⟨clean.touches, clean.torn⟩, trivial⟩,
        fun ⟨clean, _⟩ => ⟨clean.touches, clean.torn⟩⟩

end Passes

section Begins

variable {world : World} {status : ServiceStatus} {workerId : Int}

theorem begin_kept (steady : Steady world) : Kept (begin status workerId world) :=
  ⟨steady, Nat.le_refl _, fun _ same => (by cases same), fun _ same => (by cases same),
    fun _ _ aims => (by cases aims)⟩

theorem begin_clean : Clean (begin status workerId world) :=
  ⟨fun _ member => (by cases member), rfl⟩

/-- What has been done once stays recorded. -/
theorem clean_before {pass after : Pass} {label : Label} (stepped : step pass label = some after)
    (clean : Clean after) : Clean pass := by
  have shorter : ∀ {more : List Touch}, (∀ touch ∈ pass.touches ++ more, touch.released = false) →
      ∀ touch ∈ pass.touches, touch.released = false := fun whole touch member =>
    whole touch (List.mem_append_left _ member)
  have whole : ∀ {more : List ConRef}, pass.torn ++ more = [] → pass.torn = [] := fun empty =>
    (List.append_eq_nil_iff.mp empty).1
  cases step_moved stepped with
  | worked | popped | shut => exact ⟨shorter clean.touches, clean.torn⟩
  | closed | dropped => exact ⟨clean.touches, whole clean.torn⟩
  | wrote | connected | accepted => exact ⟨clean.touches, clean.torn⟩

/-- A clean pass has only taken steps that meet the condition. -/
theorem runs_kept {pass : Pass} (steady : Steady world)
    (runs : Run step (begin status workerId world) pass) (clean : Clean pass) : Kept pass := by
  induction runs with
  | refl => exact begin_kept steady
  | next label _ _ stepped ih =>
      have kept := ih (clean_before stepped clean)
      exact (step_clean kept stepped).1 ((step_clean kept stepped).2.mp clean).2

theorem guarded_clean {pass : Pass} (steady : Steady world)
    (runs : GuardedRun step Retained (begin status workerId world) pass) : Clean pass :=
  (runs.invariant_with Kept Clean
    (fun _ _ _ kept retained stepped => (step_clean kept stepped).1 retained)
    (fun _ _ _ kept clean retained stepped => (step_clean kept stepped).2.mpr ⟨clean, retained⟩)
    (begin_kept steady) begin_clean).2

/-- Between two passes every service is in such a state. -/
theorem service_steady {mServiceId : Int} {service : ServiceWorker.Service}
    (runs : Run ServiceWorker.step (.configured mServiceId) service)
    (pc : service.pc = .ready) : Steady service.world := by
  have covered : ServiceReferences.Covered service := runs.invariant ServiceReferences.Covered
    (fun _ _ _ covered _ stepped => ServiceReferences.step_covered covered stepped)
    (ServiceReferences.configured_covered mServiceId)
  refine ⟨covered.freed, fun con => ?_⟩
  have enough := covered.enough con
  simp only [ServiceReferences.holders, ServiceReferences.registered, ServiceReferences.waiting,
    pc] at enough
  omega

/-- So is every server whose users do not destroy a connection before it has been counted. -/
theorem server_steady {mServerId : Int} {number : Nat} {server : ServerWorker.Server}
    (runs : GuardedRun ServerWorker.step ServerReferences.NoEarlyDestroy
      (.listening mServerId number) server)
    (pc : server.pc = .ready) : Steady server.world := by
  have covered := ServerReferences.guarded_covered runs
  refine ⟨covered.freed, fun con => ?_⟩
  have enough := covered.enough con
  simp only [ServerReferences.surplus, ServerReferences.holders, ServerReferences.registered,
    ServerReferences.waiting, ServerReferences.pending, ServerReferences.inHand, pc] at enough
  omega

end Begins

section Results

/-- A pass is clean in every run whose steps all meet the condition, and the first step that does
not meet it ends that for good. -/
theorem pass_spares_released (status : ServiceStatus) (workerId : Int) (world : World)
    (steady : Steady world) (pass : Pass) (runs : Run step (begin status workerId world) pass) :
    (GuardedRun step Retained (begin status workerId world) pass → Clean pass) ∧
    ∀ label after, step pass label = some after →
      (Clean after ↔ Clean pass ∧ Retained pass label) := by
  refine ⟨fun guarded => guarded_clean steady guarded, fun label after stepped => ?_⟩
  constructor
  · intro clean
    have before := clean_before stepped clean
    exact (step_clean (runs_kept steady runs before) stepped).2.mp clean
  · rintro ⟨clean, retained⟩
    exact (step_clean (runs_kept steady runs clean) stepped).2.mpr ⟨clean, retained⟩

/-- A server that has accepted one connection, which its user holds. -/
def servedOne : Option ServerWorker.Server :=
  exec (guarded ServerWorker.step ServerReferences.NoEarlyDestroy) (.listening 1 3)
    (ServerReferences.acceptOne 3 5 ++ [.userAccept])

def acceptedWorld : World :=
  (servedOne.map fun server => server.world).getD (ServerWorker.Server.listening 1 3).world

theorem accepted_steady : Steady acceptedWorld := by
  have ready : servedOne.any (fun server => server.pc = .ready) = true := by decide +kernel
  cases played : servedOne with
  | none => simp [played] at ready
  | some server =>
      have pc : server.pc = .ready := by simpa [played] using ready
      have same : acceptedWorld = server.world := by simp [acceptedWorld, played]
      rw [same]
      exact server_steady (exec_guarded played) pc

def work (answers : List SendAnswer) : List Label := answers.map .turn

-- The user writes and destroys, the visit's send fails: the pass unlocks a freed queue.
theorem failed_send_frees : ∃ pass, Run step (begin .running 1 acceptedWorld) pass ∧
    ¬ Clean pass ∧ pass.torn = [0] ∧ ⟨0, .headUnlock, true⟩ ∈ pass.touches := by
  obtain ⟨pass, run, tested⟩ := replayed step (fun _ _ => True) (begin .running 1 acceptedWorld)
    ([.userWrite 0 [7] zeroed, .userDestroy 0] ++
      work [.again, .again, .failed, .again, .again, .again])
    (fun pass => pass.torn = [0] ∧ ⟨0, .headUnlock, true⟩ ∈ pass.touches) (by decide +kernel)
  obtain ⟨torn, touch⟩ := of_decide_eq_true tested
  refine ⟨pass, run, fun clean => ?_, torn, touch⟩
  cases clean.touches _ touch

-- The same failure while the user still holds the connection.
theorem held_through_failure : ∃ pass, GuardedRun step Retained (begin .running 1 acceptedWorld) pass ∧
    pass.pc = .visiting 0 ∧ pass.world.mConnections.items = [] ∧ Clean pass := by
  obtain ⟨pass, run, tested⟩ := replayed step Retained (begin .running 1 acceptedWorld)
    ([.userWrite 0 [7] zeroed] ++ work [.again, .again, .failed, .again, .again, .again])
    (fun pass => pass.pc = .visiting 0 ∧ pass.world.mConnections.items = []) (by decide +kernel)
  obtain ⟨pc, items⟩ := of_decide_eq_true tested
  exact ⟨pass, run, pc, items, (pass_spares_released .running 1 acceptedWorld accepted_steady pass
    (run.weaken fun _ _ _ => trivial)).1 run⟩

end Results

end Libasock.SendPass
