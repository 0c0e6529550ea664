import Libasock.ReferenceCounts
import Libasock.ServiceWorker

/-!
The references of a service's connections. `asock_connect` counts the second
reference before it pushes the connection, so in every reachable state the
counter of a connection covers all who hold it: the worker for the entries it
serves or has still to take over, the calls of `asock_connect` on their way to
the push, and the user.
-/

namespace Libasock.ServiceReferences
open ByteBlocks GuardedRuns NumberReuse ReturnCodes TsqueueModel ConnectionObjects WorkerWorld
  ReferenceCounts ServiceWorker

def registered (service : Service) : List ConRef :=
  match service.pc with
  | .stopped => []
  | _ => service.world.mConnections.items

/-- What is left of `m_new_connections` for the worker to take over. -/
def waiting (service : Service) : List ConRef :=
  match service.pc with
  | .stopped => []
  | .takingOver index => service.world.mNewConnections.items.drop index
  | _ => service.world.mNewConnections.items

def holders (service : Service) (con : ConRef) : Nat :=
  (registered service).count con + (waiting service).count con +
    service.connecting.count con + service.world.held.count con

structure Covered (service : Service) : Prop where
  placed : ∀ con, (service.world.objects con).isSome ↔ con < service.world.created
  freed : FreedAtZero service.world
  enough : ∀ con, (holders service con : Int) ≤ counter service.world con

/-- What the counter has beyond the holders. -/
def surplus (service : Service) (con : ConRef) : Int :=
  counter service.world con - holders service con

variable {service after : Service} {label : Label}

theorem level_enough (covered : Covered service)
    (level : ∀ con, surplus after con = surplus service con) :
    ∀ con, (holders after con : Int) ≤ counter after.world con := by
  intro con
  have enough := covered.enough con
  have same := level con
  simp only [surplus] at same
  omega

theorem still_lists (isStill : still service.pc = true) :
    registered service = service.world.mConnections.items ∧
      waiting service = service.world.mNewConnections.items := by
  cases pc : service.pc <;> simp_all [still, registered, waiting]

theorem holder_counter {con : ConRef} (covered : Covered service) (holds : 0 < holders service con) :
    0 < counter service.world con := by
  have enough := covered.enough con
  omega

theorem registered_counter {con : ConRef} (covered : Covered service)
    (member : con ∈ registered service) : 0 < counter service.world con := by
  apply holder_counter covered
  have listed := List.count_pos_iff.mpr member
  simp only [holders]
  omega

theorem waiting_counter {con : ConRef} (covered : Covered service)
    (member : con ∈ waiting service) : 0 < counter service.world con := by
  apply holder_counter covered
  have listed := List.count_pos_iff.mpr member
  simp only [holders]
  omega

theorem held_counter {con : ConRef} (covered : Covered service)
    (member : con ∈ service.world.held) : 0 < counter service.world con := by
  apply holder_counter covered
  have listed := List.count_pos_iff.mpr member
  simp only [holders]
  omega

/-- A step that moves no reference and leaves the lists to the same program points. -/
theorem same_covered (covered : Covered service) (same : SameReferences service.world after.world)
    (connecting : after.connecting = service.connecting)
    (sameRegistered : registered after = registered service)
    (sameWaiting : waiting after = waiting service) :
    Covered after ∧ ∀ con, surplus after con = surplus service con := by
  have level : ∀ con, surplus after con = surplus service con := by
    intro con
    simp only [surplus, holders, same.counters, sameRegistered, sameWaiting, connecting, same.lists.held]
  refine ⟨⟨?_, same.freed covered.freed, level_enough covered level⟩, level⟩
  intro con
  rw [same.known, same.lists.created]
  exact covered.placed con

theorem same_place (covered : Covered service) (same : SameReferences service.world after.world)
    (connecting : after.connecting = service.connecting) (pc : after.pc = service.pc) :
    Covered after ∧ ∀ con, surplus after con = surplus service con := by
  apply same_covered covered same connecting
  · simp only [registered, pc, same.lists.connections]
  · simp only [waiting, pc, same.lists.new]

section Closing

theorem closeNumber_covered (covered : Covered service) (closing : mayClose service.pc = true)
    (number : Nat) (peer : Bool) {pc : Pc} (isStill : still pc = true) :
    Covered (closeNumber service number peer pc) ∧
      ∀ con, surplus (closeNumber service number peer pc) con = surplus service con +
        (service.world.mNewConnections.items.count con -
          (service.world.forgetNew number).mNewConnections.items.count con : Nat) := by
  obtain ⟨listed, new⟩ := still_lists (mayClose_still closing)
  obtain ⟨listedAfter, newAfter⟩ :=
    still_lists (show still (closeNumber service number peer pc).pc = true from isStill)
  have level : ∀ con, surplus (closeNumber service number peer pc) con = surplus service con +
      (service.world.mNewConnections.items.count con -
        (service.world.forgetNew number).mNewConnections.items.count con : Nat) := by
    intro con
    obtain ⟨counts, shorter, held, _, _⟩ := close_counts service.world con number
    obtain ⟨_, _, fewer⟩ := forgetNew_lists service.world number con
    simp only [surplus, holders, listed, new, listedAfter, newAfter]
    simp only [closeNumber, shorter, held]
    omega
  refine ⟨⟨?_, ?_, ?_⟩, level⟩
  · intro con
    obtain ⟨_, _, _, created, known⟩ := close_counts service.world con number
    simp only [closeNumber, created, known]
    exact covered.placed con
  · refine freed_close covered.freed fun con member => ?_
    exact registered_counter covered (listed ▸ member)
  · intro con
    have enough := covered.enough con
    have more := level con
    simp only [surplus] at more
    omega

theorem stop_covered (covered : Covered service) (pc : service.pc = .ready) :
    Covered (stopStep service) ∧ ∀ con, surplus (stopStep service) con = surplus service con := by
  have isStill : still service.pc = true := by rw [pc]; rfl
  obtain ⟨listed, new⟩ := still_lists isStill
  have enough : ∀ con, (service.world.mConnections.items.count con +
      service.world.mNewConnections.items.count con + service.connecting.count con +
      service.world.held.count con : Nat) ≤ counter service.world con := by
    intro con
    have level := covered.enough con
    rw [holders, listed, new] at level
    exact level
  let all := service.world.mConnections.items ++ service.world.mNewConnections.items
  have world : (stopStep service).world = service.world.destroyAll all :=
    (destroyAll_append service.world _ _).symm
  have level : ∀ con, (all.count con + service.connecting.count con +
      service.world.held.count con : Nat) ≤ counter service.world con := by
    intro con
    rw [List.count_append]
    exact enough con
  have known : ∀ con ∈ all, (service.world.objects con).isSome := by
    intro con member
    have listed := List.count_pos_iff.mpr member
    have more := level con
    obtain ⟨object, found⟩ := counted_object (show counter service.world con ≠ 0 by omega)
    rw [found]
    rfl
  have lists := destroyAll_lists service.world all
  have same : ∀ con, surplus (stopStep service) con = surplus service con := by
    intro con
    have nobody : holders (stopStep service) con =
        service.connecting.count con + (stopStep service).world.held.count con := by
      simp only [holders, registered, waiting, stopStep, List.count_nil]
      omega
    have both : all.count con = service.world.mConnections.items.count con +
        service.world.mNewConnections.items.count con := List.count_append
    rw [surplus, surplus, nobody, world, lists.held, destroyAll_counter all known, holders, listed,
      new, both]
    omega
  refine ⟨⟨?_, ?_, level_enough covered same⟩, same⟩
  · intro con
    rw [world, destroyAll_isSome, lists.created]
    exact covered.placed con
  · rw [world]
    refine freed_destroyAll all covered.freed fun con => ?_
    have more := level con
    omega

end Closing

section TakingOver

variable {index : Nat} {con : ConRef} {middle : World} {outcome : ConnectOutcome}

theorem tries_references {object : Object} (found : service.world.objects con = some object)
    (tries : tryConnectToPeer service.world con outcome = some middle) :
    SameReferences service.world middle := by
  obtain ⟨tried, lists⟩ := tries_cases found tries
  have through : ∀ state fd,
      middle.objects = (service.world.put con (attempted object state fd)).objects →
      SameReferences service.world middle := by
    intro state fd objects
    have same : SameReferences service.world
      (service.world.put con (attempted object state fd)) := same_put found rfl rfl
    exact same_through same lists objects
  cases tried with
  | refused objects => exact through _ _ objects
  | abandoned _ objects => exact through _ _ objects
  | started _ _ _ objects => exact through _ _ objects

theorem taken (pc : service.pc = .takingOver index)
    (here : service.world.mNewConnections.items[index]? = some con) :
    waiting service = con :: service.world.mNewConnections.items.drop (index + 1) := by
  obtain ⟨inside, same⟩ := List.getElem?_eq_some_iff.mp here
  simp only [waiting, pc]
  rw [List.drop_eq_getElem_cons inside, same]

theorem taken_object (covered : Covered service) (pc : service.pc = .takingOver index)
    (here : service.world.mNewConnections.items[index]? = some con) :
    ∃ object, service.world.objects con = some object := by
  have positive := waiting_counter covered (show con ∈ waiting service by rw [taken pc here]; simp)
  exact counted_object (Int.ne_of_gt positive)

theorem gaveUp_covered (covered : Covered service) (pc : service.pc = .takingOver index)
    (here : service.world.mNewConnections.items[index]? = some con)
    (tries : tryConnectToPeer service.world con outcome = some middle) :
    let after : Service :=
      { service with world := middle.destroyAsock con, pc := .takingOver (index + 1) }
    Covered after ∧ ∀ other, surplus after other = surplus service other := by
  intro after
  obtain ⟨object, found⟩ := taken_object covered pc here
  have same := tries_references found tries
  have lists := same.lists.trans (destroy_lists middle con)
  have positive : 0 < counter middle con := by
    rw [same.counters]
    exact waiting_counter covered (by rw [taken pc here]; simp)
  obtain ⟨tried, foundTried⟩ := counted_object (Int.ne_of_gt positive)
  have level : ∀ other, surplus after other = surplus service other := by
    intro other
    simp only [surplus, holders, taken pc here, registered, pc, List.count_cons, beq_iff_eq]
    simp only [after, waiting, lists.connections, lists.new, lists.held,
      counter_destroy foundTried, same.counters]
    by_cases hit : other = con
    · simp only [hit, if_true]
      omega
    · simp only [hit, Ne.symm hit, if_false]
      omega
  refine ⟨⟨?_, freed_destroy (same.freed covered.freed) positive, level_enough covered level⟩, level⟩
  intro other
  simp only [after, destroy_isSome, same.known, lists.created]
  exact covered.placed other

theorem push_count (list : Connections) (con other : ConRef) (granted : Bool) :
    (list.push con granted).2.items.count other ≤
      list.items.count other + (if con = other then 1 else 0) ∧
    (granted = true → (list.push con granted).2.items.count other =
      list.items.count other + if con = other then 1 else 0) := by
  rcases push_cases list con granted with ⟨_, more, _⟩ | ⟨_, same, _, refused⟩
  · simp [more, List.count_append, List.count_singleton]
  · rw [same, refused]
    exact ⟨Nat.le_add_right _ _, fun impossible => by cases impossible⟩

theorem tookOver_covered (covered : Covered service) (pc : service.pc = .takingOver index)
    (here : service.world.mNewConnections.items[index]? = some con)
    (tries : tryConnectToPeer service.world con outcome = some middle) (granted : Bool) :
    let after : Service :=
      { service with
        world := middle.setConnections (middle.mConnections.push con granted).2
        pc := .takingOver (index + 1) }
    Covered after ∧ (granted = true → ∀ other, surplus after other = surplus service other) := by
  intro after
  obtain ⟨object, found⟩ := taken_object covered pc here
  have same := tries_references found tries
  have level : ∀ other, surplus after other = surplus service other +
      ((service.world.mConnections.items.count other + if con = other then 1 else 0) -
        (middle.mConnections.push con granted).2.items.count other : Nat) := by
    intro other
    obtain ⟨pushed, _⟩ := push_count middle.mConnections con other granted
    simp only [same.lists.connections] at pushed
    simp only [surplus, holders, taken pc here, registered, pc, List.count_cons, beq_iff_eq]
    simp only [after, waiting, setConnections_items, setConnections_new, setConnections_held,
      counter_setConnections, same.lists.connections, same.lists.new, same.lists.held,
      same.counters]
    omega
  refine ⟨⟨?_, same.freed covered.freed, ?_⟩, ?_⟩
  · intro other
    simp only [after, setConnections_objects, setConnections_created, same.known,
      same.lists.created]
    exact covered.placed other
  · intro other
    have enough := covered.enough other
    have more := level other
    simp only [surplus] at more
    omega
  · intro given other
    have pushed := (push_count middle.mConnections con other granted).2 given
    rw [same.lists.connections] at pushed
    rw [level, same.lists.connections, pushed]
    omega

end TakingOver

section UserSteps

variable {con : ConRef}

theorem connectBegin_covered {addr : List Byte} (covered : Covered service)
    (holds : con ∈ service.world.held) (begins : connectBegin service con addr = some after) :
    Covered after ∧ ∀ other, surplus after other = surplus service other := by
  simp only [connectBegin, Option.bind_eq_bind, Option.bind_eq_some_iff] at begins
  obtain ⟨object, found, result⟩ := begins
  cases result
  have same : SameReferences service.world
      (service.world.put con (addressed object addr service.mServiceId)) := same_put found rfl rfl
  generalize service.world.put con (addressed object addr service.mServiceId) = readdressed at same ⊢
  have lists := same.lists.trans ((setState_lists readdressed con .inProgress).trans
    (incr_lists _ con))
  have positive : 0 < counter (readdressed.setState con .inProgress) con := by
    rw [counter_setState, same.counters]
    exact held_counter covered holds
  obtain ⟨begun, foundBegun⟩ := counted_object (Int.ne_of_gt positive)
  have level : ∀ other, surplus { service with
      world := (readdressed.setState con .inProgress).counterIncr con
      connecting := con :: service.connecting } other = surplus service other := by
    intro other
    simp only [surplus, holders, registered, waiting, lists.connections, lists.new, lists.held,
      counter_incr foundBegun, counter_setState]
    rw [same.counters]
    simp only [List.count_cons, beq_iff_eq]
    by_cases hit : other = con
    · simp only [hit, if_true]
      omega
    · simp only [hit, Ne.symm hit, if_false]
      omega
  refine ⟨⟨?_, freed_incr (freed_setState (same.freed covered.freed) con .inProgress) positive,
    level_enough covered level⟩, level⟩
  intro other
  simp only [incr_isSome, setState_isSome, lists.created]
  rw [same.known]
  exact covered.placed other

/-- The call of `asock_connect` passes its reference on to the entry, if the push finds memory. -/
theorem connectPush_holders (begun : con ∈ service.connecting)
    (unlocked : locked service.pc = false) (granted : Bool) (other : ConRef) :
    holders (connectPush service con granted) other ≤ holders service other ∧
      (granted = true → service.pc ≠ .stopped →
        holders (connectPush service con granted) other = holders service other) := by
  have counted := List.count_pos_iff.mpr begun
  obtain ⟨pushed, whole⟩ := push_count service.world.mNewConnections con other granted
  have held : (connectPush service con granted).connecting.count other =
      service.connecting.count other - if con = other then 1 else 0 := by
    simp only [connectPush, List.count_erase, beq_iff_eq]
  have same : registered (connectPush service con granted) = registered service := rfl
  have lists : (service.pc = .stopped ∧ waiting service = [] ∧
        waiting (connectPush service con granted) = []) ∨
      (waiting service = service.world.mNewConnections.items ∧
        waiting (connectPush service con granted) =
          (service.world.mNewConnections.push con granted).2.items) := by
    cases pc : service.pc <;> simp_all [waiting, connectPush, locked]
  have world : (connectPush service con granted).world.held = service.world.held := rfl
  simp only [holders, same, held, world]
  rcases lists with ⟨stopped, nobody, nobodyAfter⟩ | ⟨before, all⟩
  · rw [nobody, nobodyAfter]
    refine ⟨?_, fun _ runs => absurd stopped runs⟩
    omega
  · rw [before, all]
    by_cases hit : con = other
    · simp only [hit, if_true] at pushed whole counted ⊢
      exact ⟨by omega, fun given _ => by rw [whole given]; omega⟩
    · simp only [hit, if_false] at pushed whole ⊢
      exact ⟨by omega, fun given _ => by rw [whole given]; omega⟩

theorem connectPush_covered (covered : Covered service) (begun : con ∈ service.connecting)
    (unlocked : locked service.pc = false) (granted : Bool) :
    Covered (connectPush service con granted) ∧ (granted = true → service.pc ≠ .stopped →
      ∀ other, surplus (connectPush service con granted) other = surplus service other) := by
  have counters : ∀ other, counter (connectPush service con granted).world other =
    counter service.world other := fun _ => rfl
  refine ⟨⟨covered.placed, covered.freed, fun other => ?_⟩, fun given runs other => ?_⟩
  · have enough := covered.enough other
    have fewer := (connectPush_holders begun unlocked granted other).1
    rw [counters]
    omega
  · have same := (connectPush_holders begun unlocked granted other).2 given runs
    rw [surplus, surplus, counters, same]

theorem userDestroy_covered {world : World} (covered : Covered service)
    (destroys : service.world.userDestroy con = some world) :
    Covered { service with world := world } ∧
      ∀ other, surplus { service with world := world } other = surplus service other := by
  obtain ⟨holds, rfl⟩ := userDestroy_cases _ destroys
  have listed := List.count_pos_iff.mpr holds
  have positive := held_counter covered holds
  obtain ⟨object, found⟩ := counted_object (Int.ne_of_gt positive)
  have lists := destroy_lists (service.world.setHeld (service.world.held.erase con)) con
  have counts : ∀ other, counter
      ((service.world.setHeld (service.world.held.erase con)).destroyAsock con) other =
      counter service.world other - if other = con then 1 else 0 := fun other => counter_destroy found
  have level : ∀ other, surplus { service with
      world := (service.world.setHeld (service.world.held.erase con)).destroyAsock con } other =
      surplus service other := by
    intro other
    simp only [surplus, holders, registered, waiting, counts, lists.connections, lists.new,
      lists.held, setHeld_connections, setHeld_new, setHeld_items, List.count_erase, beq_iff_eq]
    by_cases hit : other = con
    · simp only [hit, if_true]
      omega
    · simp only [hit, Ne.symm hit, if_false]
      omega
  refine ⟨⟨?_, freed_destroy (freed_congr covered.freed rfl) positive,
    level_enough covered level⟩, level⟩
  intro other
  simp only [destroy_isSome, lists.created]
  exact covered.placed other

theorem created_covered {number : Nat} {answers : ObjectAnswers} (covered : Covered service)
    (creates : createAsockStep service number answers = some after) :
    Covered after ∧ ∀ other, surplus after other = surplus service other := by
  obtain ⟨fd, world, acquires, made⟩ := created_cases creates
  have same := acquire_references acquires
  rcases made with rfl | ⟨made, fresh, rfl⟩
  · exact same_place covered (same.trans (close_references world (some fd))) rfl rfl
  · have single := fresh.counted
    have nobody : counter service.world world.created = 0 := by
      rw [counter, same.lists.created, unborn_absent covered.placed]
    have level : ∀ other, surplus { service with
        world := (world.add made).setHeld (world.created :: world.held) } other =
        surplus service other := by
      intro other
      have unheld := covered.enough world.created
      have items : (world.add made).mConnections = service.world.mConnections :=
        same.lists.connections
      have new : (world.add made).mNewConnections = service.world.mNewConnections :=
        same.lists.new
      simp only [surplus, holders, registered, waiting, setHeld_connections, setHeld_new,
        setHeld_items, items, new, counter_setHeld, counter_add, same.counters, same.lists.held,
        List.count_cons, beq_iff_eq, single] at unheld ⊢
      by_cases hit : other = world.created
      · subst hit
        simp only [if_true]
        omega
      · simp only [hit, Ne.symm hit, if_false]
        omega
    refine ⟨⟨?_, freed_congr (freed_add (same.freed covered.freed) single) rfl,
      level_enough covered level⟩, level⟩
    intro other
    have next : ((world.add made).setHeld (world.created :: world.held)).created =
      world.created + 1 := rfl
    rw [setHeld_objects, add_isSome, same.known, next, Bool.or_eq_true, decide_eq_true_eq,
      covered.placed, same.lists.created]
    exact or_comm.trans Nat.lt_succ_iff_lt_or_eq.symm

end UserSteps

section Runs

/-- The push of the step gets no memory. -/
def refused : Label → Bool
  | .takeOver _ granted | .userConnectPush _ granted => !granted
  | _ => false

/-- The step makes and drops no entry without its reference. -/
structure Balanced (service : Service) (label : Label) : Prop where
  runs : service.pc ≠ .stopped
  granted : refused label = false
  kept : ∀ number ∈ closedNumber service label,
    (service.world.forgetNew number).mNewConnections = service.world.mNewConnections

theorem step_counts (covered : Covered service) (stepped : step service label = some after) :
    Covered after ∧
      (Balanced service label → ∀ con, surplus after con = surplus service con) := by
  have always : ∀ {after : Service},
      (Covered after ∧ ∀ con, surplus after con = surplus service con) →
      Covered after ∧ (Balanced service label → ∀ con, surplus after con = surplus service con) :=
    fun both => ⟨both.1, fun _ => both.2⟩
  cases step_moved stepped with
  | closed number peer pc closing isStill asked =>
      obtain ⟨kept, level⟩ := closeNumber_covered covered closing number peer isStill
      refine ⟨kept, fun balanced con => ?_⟩
      rw [level, balanced.kept number asked]
      omega
  | turned pc before isStill =>
      obtain ⟨listed, new⟩ := still_lists before
      obtain ⟨listedAfter, newAfter⟩ :=
        still_lists (show still ({ service with pc := pc } : Service).pc = true from isStill)
      exact always (@same_covered service { service with pc := pc } covered
        (same_objects ⟨rfl, rfl, rfl, rfl⟩ rfl) rfl
        (listedAfter.trans listed.symm) (newAfter.trans new.symm))
  | created _ creates => exact always (created_covered covered creates)
  | began pc =>
      exact always (@same_covered service { service with pc := .takingOver 0 } covered
        (same_objects ⟨rfl, rfl, rfl, rfl⟩ rfl) rfl
        (by simp [registered, pc]) (by simp [waiting, pc]))
  | gaveUp index con middle object pc here tries => exact always (gaveUp_covered covered pc here tries)
  | tookOver index con middle object pc here tries =>
      obtain ⟨kept, level⟩ := tookOver_covered covered pc here tries _
      exact ⟨kept, fun balanced => level (by simpa [refused] using balanced.granted)⟩
  | cleared index pc finished =>
      have level : ∀ con, surplus { service with
          world := service.world.setNew service.world.mNewConnections.clear, pc := .ready } con =
          surplus service con := by
        intro con
        have left : waiting service = [] := by simp [waiting, pc, finished]
        simp only [surplus, holders, left]
        simp only [registered, waiting, pc, Connections.clear, setNew_items, setNew_connections,
          setNew_held, counter_setNew]
      exact always ⟨⟨covered.placed, covered.freed, level_enough covered level⟩, level⟩
  | established con number mask pc =>
      have isStill : still service.pc = true := by rw [pc]; rfl
      have lists := setState_lists service.world con .established
      refine always (same_covered covered ⟨lists, fun _ => counter_setState _,
        fun _ => setState_isSome _, fun freed => freed_setState freed con _⟩ rfl ?_ ?_)
      · simp only [registered, pc, lists.connections]
      · simp only [waiting, pc, lists.new]
  | read number world pc reads =>
      exact always (same_place covered (readData_references reads) rfl rfl)
  | stopped pc => exact always (stop_covered covered pc)
  | connectBegun holds begins => exact always (connectBegin_covered covered holds begins)
  | connectPushed begun unlocked =>
      obtain ⟨kept, level⟩ := connectPush_covered covered begun unlocked _
      exact ⟨kept, fun balanced =>
        level (by simpa [refused] using balanced.granted) balanced.runs⟩
  | userRead world reads => exact always (same_place covered (userRead_references reads) rfl rfl)
  | userDestroyed world destroys => exact always (userDestroy_covered covered destroys)
  | arrived world arrives => exact always (same_place covered (arrive_references arrives) rfl rfl)

-- No condition on the run: the reference a list will need is counted before the push.
theorem step_covered (covered : Covered service) (stepped : step service label = some after) :
    Covered after := (step_counts covered stepped).1

theorem configured_covered (mServiceId : Int) : Covered (.configured mServiceId) := by
  refine ⟨?_, ?_, fun _ => Int.le_refl _⟩
  · intro con
    simp [Service.configured]
  · intro con object found
    cases found

end Runs

end Libasock.ServiceReferences
