import Libasock.UnreadSockets
import Libasock.ServiceDelivery

/-!
Registered connections with their open sockets. Apart from a connection that has
just been taken over, whoever is registered after a step was so before it, with
no more to read unless it arrived and no further from being established.
-/

namespace Libasock.ServiceFronts
open ByteBlocks GuardedRuns NumberReuse ReturnCodes TsqueueModel ConnectionObjects WorkerWorld
  ReferenceCounts DescriptorOwnership SocketContents RegisteredConnections ServiceWorker
  ServiceReferences ServiceStates ServiceDescriptors ServiceDelivery UnreadSockets

def unread (world : World) (fd : Descriptor) : Prop :=
  (world.sockets fd.acquisition).buffered ≠ []

def inProgress (world : World) (con : ConRef) : Prop :=
  view stateOf world con = some .inProgress

instance (world : World) (fd : Descriptor) : Decidable (unread world fd) :=
  inferInstanceAs (Decidable (¬ _ = _))

instance (world : World) (con : ConRef) : Decidable (inProgress world con) :=
  inferInstanceAs (Decidable (_ = _))

section Fronts
variable {world before after : World} {con : ConRef} {fd : Descriptor} {label : Label}

/-- A registered connection with its open socket. -/
structure Front (world : World) (con : ConRef) (fd : Descriptor) : Prop where
  listed : con ∈ world.mConnections.items
  remembers : assigned world none (some con) = some fd
  isOpen : world.table.opened fd.number = some fd.acquisition

/-- The connection was there before the step, with no more to read unless it arrived and no
further from being established. -/
structure Carried (before after : World) (label : Label) (con : ConRef) (fd : Descriptor) :
    Prop where
  front : Front before con fd
  unread : unread after fd → unread before fd ∨ ∃ bytes, label = .arrive fd.number bytes
  inProgress : inProgress after con → inProgress before con

/-- The connection has just been given a new socket. -/
structure Renewed (before after : World) (fd : Descriptor) : Prop where
  fresh : fd.acquisition = before.table.acquired
  empty : ¬ unread after fd

theorem carried_frame (front : Front after con fd)
    (items : con ∈ after.mConnections.items → con ∈ before.mConnections.items)
    (same : assigned after none (some con) = assigned before none (some con))
    (shrinks : Shrinks before after) (sockets : after.sockets = before.sockets)
    (states : inProgress after con → inProgress before con) :
    Carried before after label con fd :=
  ⟨⟨items front.listed, same ▸ front.remembers, shrinks _ _ front.isOpen⟩,
    fun left => .inl (by unfold unread at left ⊢; rwa [sockets] at left), states⟩

theorem carried_same (front : Front after con fd) (objects : after.objects = before.objects)
    (items : after.mConnections.items = before.mConnections.items)
    (table : after.table = before.table) (sockets : after.sockets = before.sockets) :
    Carried before after label con fd := by
  apply carried_frame front
  · rw [items]
    exact id
  · exact congrFun ((keeps_objects objects).assigned none) (some con)
  · exact shrinks_table table
  · exact sockets
  · unfold inProgress
    rw [view_objects objects]
    exact id

theorem carried_close (number : Nat) (front : Front (before.closeConnection number).2 con fd) :
    Carried before (before.closeConnection number).2 label con fd := by
  apply carried_frame front
  · exact close_fewer before number
  · exact congrFun ((close_keeps before number).assigned none) (some con)
  · exact close_connection_shrinks before number
  · exact close_connection_sockets before number
  · intro state
    unfold inProgress at state ⊢
    by_cases hit : before.conBySockDesc number = some con
    · rw [close_failed hit] at state
      cases state
    · rwa [close_states hit] at state

theorem tried_socket {object : Object} (tried : Tried before after con object)
    (remembers : assigned after none (some con) = some fd) : Renewed before after fd := by
  have given : ∀ state held, after.objects =
      (before.put con (attempted object state held)).objects → held = some fd := by
    intro state held objects
    rw [(tried_owners objects).1, Function.update_self] at remembers
    exact remembers
  cases tried with
  | refused objects => cases given _ _ objects
  | abandoned _ objects => cases given _ _ objects
  | started state acquires begun objects table sockets =>
      cases given _ _ objects
      obtain ⟨_, acquired, same⟩ := acquire_effect acquires
      obtain ⟨_, rfl, _⟩ := acquire_shape acquired
      exact ⟨rfl, by simp [unread, sockets, same]⟩

/-- A new descriptor is none of those that were given before. -/
theorem acquire_older {acquired : World} {number : Nat} {infd : Descriptor}
    (acquires : before.acquire number = some (infd, acquired))
    (older : fd.acquisition < before.table.acquired) :
    (acquired.table.opened fd.number = some fd.acquisition →
      before.table.opened fd.number = some fd.acquisition) ∧
    acquired.sockets fd.acquisition = before.sockets fd.acquisition := by
  obtain ⟨_, table, sockets⟩ := acquire_effect acquires
  obtain ⟨_, rfl, opened⟩ := acquire_shape table
  have apart : fd.acquisition ≠ before.table.acquired := Nat.ne_of_lt older
  refine ⟨?_, by simp [sockets, apart]⟩
  intro isOpen
  simp only [opened] at isOpen
  by_cases hit : fd.number = number
  · rw [hit, Function.update_self, Option.some.injEq] at isOpen
    exact absurd isOpen.symm apart
  · rwa [Function.update_of_ne hit] at isOpen

theorem carried_acquire {acquired : World} {number : Nat} {infd : Descriptor}
    (acquires : before.acquire number = some (infd, acquired))
    (owned : OwnedWorld before none) (front : Front after con fd)
    (items : con ∈ after.mConnections.items → con ∈ before.mConnections.items)
    (same : assigned after none (some con) = assigned before none (some con))
    (shrinks : Shrinks acquired after) (sockets : after.sockets = acquired.sockets)
    (states : inProgress after con → inProgress before con) :
    Carried before after label con fd := by
  have remembers : assigned before none (some con) = some fd := same ▸ front.remembers
  obtain ⟨opened, socket⟩ := acquire_older acquires (owned.known (some con) fd remembers)
  refine ⟨⟨items front.listed, remembers, opened (shrinks _ _ front.isOpen)⟩, ?_, states⟩
  intro left
  unfold unread at left ⊢
  rw [sockets, socket] at left
  exact .inl left

/-- A takeover changes nothing for the other connections. -/
theorem carried_tried {taken : ConRef} {object : Object} (tried : Tried before after taken object)
    (owned : OwnedWorld before none) (different : con ≠ taken)
    (items : con ∈ after.mConnections.items → con ∈ before.mConnections.items)
    (front : Front after con fd) : Carried before after label con fd := by
  have away : some con ≠ some taken := fun same => different (Option.some.inj same)
  have states : inProgress after con → inProgress before con := by
    unfold inProgress
    rw [tried_other tried different]
    exact id
  have same : ∀ state held, after.objects =
      (before.put taken (attempted object state held)).objects →
        assigned after none (some con) = assigned before none (some con) := by
    intro state held objects
    rw [(tried_owners objects).1, Function.update_of_ne away]
  cases tried with
  | refused objects table sockets =>
      exact carried_frame front items (same _ _ objects) (shrinks_table table) sockets states
  | abandoned acquires objects table sockets =>
      exact carried_acquire acquires owned front items (same _ _ objects)
        ((close_shrinks _ _).trans (shrinks_table table)) sockets states
  | started state acquires begun objects table sockets =>
      exact carried_acquire acquires owned front items (same _ _ objects) (shrinks_table table)
        sockets states

theorem carried_readData {number count : Nat} {answer : Allocation}
    (reads : before.readData number count answer = some after) (front : Front after con fd) :
    Carried before after label con fd := by
  have items := congrArg Connections.items (readData_references reads).lists.connections
  obtain ⟨listed, remembers, isOpen⟩ := front
  refine ⟨?_, ?_, ?_⟩
  · have neutral := neutral_readData reads
    refine ⟨items ▸ listed, ?_, neutral.table ▸ isOpen⟩
    rw [← remembers]
    exact (congrFun (neutral.keeps.assigned none) (some con)).symm
  · intro left
    exact .inl (unread_readData reads ⟨remembers, isOpen, left⟩).buffered
  · unfold inProgress
    rw [(neutral_states reads).1]
    exact id

theorem carried_userRead {reader : ConRef} {dst : List Byte}
    (reads : before.userRead reader dst = some after) (front : Front after con fd) :
    Carried before after label con fd := by
  have neutral := neutral_userRead reads
  have items := congrArg Connections.items (userRead_references reads).lists.connections
  apply carried_frame front
  · rw [items]
    exact id
  · exact congrFun (neutral.keeps.assigned none) (some con)
  · exact shrinks_table neutral.table
  · obtain ⟨_, _, _, _, _, _, _, rfl⟩ := userRead_cases before reads
    rfl
  · obtain ⟨object, _, _, _, _, found, _, rfl⟩ := userRead_cases before reads
    intro state
    refine (congrFun (view_put _ found ?_) con).symm.trans state
    rfl

theorem carried_arrive {number : Nat} {bytes : List Byte} (owned : OwnedWorld before none)
    (arrives : before.arrive number bytes = some after) (front : Front after con fd) :
    Carried before after (.arrive number bytes) con fd := by
  obtain ⟨acquisition, isOpen, rfl⟩ := Option.map_eq_some_iff.mp arrives
  refine ⟨⟨front.listed, front.remembers, front.isOpen⟩, ?_, id⟩
  intro left
  by_cases hit : fd.acquisition = acquisition
  · right
    subst hit
    have same := owned.home (some con) fd number front.remembers isOpen
    exact ⟨bytes, by rw [same]⟩
  · left
    simpa [unread, World.setSocket, hit] using left

end Fronts

section Steps
variable {service after : Service} {label : Label} {con : ConRef} {fd : Descriptor}

theorem registered_mem (runs : service.pc ≠ .stopped)
    (member : con ∈ service.world.mConnections.items) : con ∈ registered service := by
  unfold registered
  split
  · rename_i stopped
    exact absurd stopped runs
  · exact member

theorem created_carried {number : Nat} {answers : ObjectAnswers} (covered : Covered service)
    (roster : Roster service.world none)
    (creates : createAsockStep service number answers = some after)
    (front : Front after.world con fd) : Carried service.world after.world label con fd := by
  obtain ⟨_, _, _, listed, _, _, states⟩ := created_states creates
  have born : con ≠ service.world.created := by
    rintro rfl
    have member := front.listed
    rw [listed] at member
    obtain ⟨_, serving⟩ := roster.serving _ member
    obtain ⟨object, found, _⟩ := serving_object serving
    rw [unborn_absent covered.placed] at found
    cases found
  have same : inProgress after.world con → inProgress service.world con := by
    unfold inProgress
    rcases states with equal | ⟨_, others⟩
    · rw [equal]
      exact id
    · rw [others con born]
      exact id
  have items : con ∈ after.world.mConnections.items →
      con ∈ service.world.mConnections.items := by
    rw [listed]
    exact id
  obtain ⟨infd, world, acquires, made⟩ := created_cases creates
  have keeps : Keeps service.world world := keeps_objects (acquire_effect acquires).1
  rcases made with rfl | ⟨made, fresh, rfl⟩
  · refine carried_acquire acquires roster.owned front items ?_ (close_shrinks _ _)
      (close_sockets _) same
    exact congrFun ((keeps.trans (keeps_objects (close_objects (some infd)))).assigned none) _
  · refine carried_acquire acquires roster.owned front items ?_ (shrinks_table rfl) rfl same
    rw [← (acquire_references acquires).lists.created] at born
    have away : some con ≠ some world.created := fun equal => born (Option.some.inj equal)
    have lists : Keeps (world.add made) ((world.add made).setHeld (world.created :: world.held)) :=
      keeps_objects rfl
    calc assigned ((world.add made).setHeld (world.created :: world.held)) none (some con)
        = assigned (world.add made) none (some con) := congrFun (lists.assigned none) _
      _ = assigned world none (some con) := by
          rw [(added_owners world fresh.descriptor).1, Function.update_of_ne away]
      _ = assigned service.world none (some con) := congrFun (keeps.assigned none) _

/-- An attempt takes nobody else's place, and the connection taken over gets a new socket. -/
theorem tries_carried {outcome : ConnectOutcome} {index : Nat} {taken : ConRef} {middle : World}
    (covered : Covered service) (roster : Roster service.world none)
    (pc : service.pc = .takingOver index)
    (here : service.world.mNewConnections.items[index]? = some taken)
    (tries : tryConnectToPeer service.world taken outcome = some middle)
    (listed : con ≠ taken → con ∈ middle.mConnections.items)
    (remembers : assigned middle none (some con) = some fd)
    (isOpen : middle.table.opened fd.number = some fd.acquisition) :
    Carried service.world middle label con fd ∨ Renewed service.world middle fd := by
  obtain ⟨first, found⟩ := taken_object covered pc here
  obtain ⟨tried, lists⟩ := tries_cases found tries
  by_cases hit : con = taken
  · subst hit
    exact .inr (tried_socket tried remembers)
  · exact .inl (carried_tried tried roster.owned hit (by rw [lists.connections]; exact id)
      ⟨listed hit, remembers, isOpen⟩)

theorem destroy_front {world : World} {gone : ConRef}
    (front : Front (world.destroyAsock gone) con fd) : Front world con fd where
  listed := by
    have member := front.listed
    rwa [(destroy_lists world gone).connections] at member
  remembers := by
    rw [← front.remembers]
    exact (congrFun ((destroy_keeps world gone).assigned none) (some con)).symm
  isOpen := destroy_shrinks world gone _ _ front.isOpen

theorem destroy_unread (world : World) (gone : ConRef) :
    unread (world.destroyAsock gone) fd ↔ unread world fd := by
  unfold unread
  rw [destroy_sockets]

theorem gaveUp_carried {outcome : ConnectOutcome} {index : Nat} {taken : ConRef} {middle : World}
    (covered : Covered service) (roster : Roster service.world none)
    (pc : service.pc = .takingOver index)
    (here : service.world.mNewConnections.items[index]? = some taken)
    (tries : tryConnectToPeer service.world taken outcome = some middle)
    (front : Front (middle.destroyAsock taken) con fd) :
    Carried service.world (middle.destroyAsock taken) label con fd ∨
      Renewed service.world (middle.destroyAsock taken) fd := by
  have before := destroy_front front
  rcases tries_carried covered roster pc here tries (fun _ => before.listed)
    before.remembers before.isOpen with carried | renewed
  · left
    refine ⟨carried.front, fun left => carried.unread ((destroy_unread ..).mp left), ?_⟩
    intro state
    apply carried.inProgress
    unfold inProgress at state ⊢
    rwa [view_destroy stateOf_uncounted] at state
  · exact .inr ⟨renewed.fresh, fun left => renewed.empty ((destroy_unread ..).mp left)⟩

theorem tookOver_carried {outcome : ConnectOutcome} {granted : Bool} {index : Nat}
    {taken : ConRef} {middle : World} (covered : Covered service)
    (roster : Roster service.world none) (pc : service.pc = .takingOver index)
    (here : service.world.mNewConnections.items[index]? = some taken)
    (tries : tryConnectToPeer service.world taken outcome = some middle)
    (front : Front (middle.setConnections (middle.mConnections.push taken granted).2) con fd) :
    Carried service.world (middle.setConnections (middle.mConnections.push taken granted).2) label
        con fd ∨
      Renewed service.world (middle.setConnections (middle.mConnections.push taken granted).2)
        fd := by
  have listed : con ≠ taken → con ∈ middle.mConnections.items := by
    intro away
    have pushed := front.listed
    rcases pushed_items middle.mConnections taken granted with more | same
    · simp only [setConnections_items, more, List.mem_append, List.mem_singleton] at pushed
      exact pushed.resolve_right away
    · simpa only [setConnections_items, same] using pushed
  rcases tries_carried covered roster pc here tries listed front.remembers front.isOpen with
    carried | renewed
  · exact .inl ⟨carried.front, carried.unread, carried.inProgress⟩
  · exact .inr ⟨renewed.fresh, renewed.empty⟩

theorem established_carried {target : ConRef} {number : Nat} (roster : Roster service.world none)
    (known : service.world.conBySockDesc number = some target)
    (front : Front (service.world.setState target .established) con fd) :
    Carried service.world (service.world.setState target .established) label con fd := by
  obtain ⟨own, serving⟩ := roster.serving target (found_listed known)
  have items := congrArg Connections.items
    (setState_lists service.world target .established).connections
  apply carried_frame front
  · rw [items]
    exact id
  · exact congrFun ((established_keeps serving).1.assigned none) (some con)
  · exact shrinks_table (setState_table _ _ _)
  · exact setState_sockets _
  · intro state
    unfold inProgress at state ⊢
    by_cases hit : con = target
    · subst hit
      obtain ⟨object, foundObject, _⟩ := serving_object serving
      have here : view stateOf service.world con = some object.con.mState := by
        simp [view, foundObject, stateOf]
      rw [setState_here .established here] at state
      cases state
    · rwa [view_setState_other _ hit] at state

theorem connectBegun_carried {target : ConRef} {addr : List Byte} (staged : Staged service)
    (roster : Roster service.world none) (idle : IdleConnect service (.userConnect target addr))
    (stays : service.pc ≠ .stopped) (begins : connectBegin service target addr = some after)
    (front : Front after.world con fd) : Carried service.world after.world label con fd := by
  obtain ⟨_, _, objects, lists, table, sockets⟩ := connectBegin_shape begins
  obtain ⟨object, found, _, _, _, _, others, _⟩ := connectBegin_states begins
  have items := congrArg Connections.items lists.connections
  apply carried_frame front
  · rw [items]
    exact id
  · exact congrFun ((connectBegin_roster idle roster begins).2.assigned none) (some con)
  · exact shrinks_table table
  · exact sockets
  · intro state
    unfold inProgress at state ⊢
    have member := front.listed
    rw [items] at member
    rw [others con ?_] at state
    · exact state
    · -- a registered connection is not idle
      rintro rfl
      have isIdle : view stateOf service.world con = some .idle := by
        rw [view, found, Option.map_some, stateOf, idle con rfl object found]
      rcases staged.served con (registered_mem stays member) with here | here <;>
        (rw [isIdle] at here; cases here)

theorem carried_userDestroy {target : ConRef} {world : World}
    (destroys : service.world.userDestroy target = some world) (front : Front world con fd) :
    Carried service.world world label con fd := by
  obtain ⟨listed, _, sockets, keeps, shrinks⟩ := userDestroy_effect destroys
  apply carried_frame front
  · rw [listed]
    exact id
  · exact congrFun (keeps.assigned none) (some con)
  · exact shrinks
  · exact sockets
  · unfold inProgress
    rw [userDestroy_views stateOf_uncounted destroys]
    exact id

/-- Whoever is registered after a step was so before it, or has just been taken over. -/
theorem step_carried (covered : Covered service) (staged : Staged service)
    (roster : Roster service.world none) (idle : IdleConnect service label)
    (stepped : ServiceWorker.step service label = some after) (runs : after.pc ≠ .stopped)
    (stays : service.pc ≠ .stopped) (front : Front after.world con fd) :
    Carried service.world after.world label con fd ∨ Renewed service.world after.world fd := by
  cases step_moved stepped with
  | closed number peer pc => exact .inl (carried_close number front)
  | turned | began | cleared => exact .inl (carried_same front rfl rfl rfl rfl)
  | connectPushed => exact .inl (carried_same front rfl rfl rfl rfl)
  | created _ creates => exact .inl (created_carried covered roster creates front)
  | gaveUp index taken middle object pc here tries =>
      exact gaveUp_carried covered roster pc here tries front
  | tookOver index taken middle object pc here tries =>
      exact tookOver_carried covered roster pc here tries front
  | established target number mask pc known =>
      exact .inl (established_carried roster known front)
  | read number world pc reads => exact .inl (carried_readData reads front)
  | stopped => exact absurd rfl runs
  | connectBegun holds begins =>
      exact .inl (connectBegun_carried staged roster idle stays begins front)
  | userRead world reads => exact .inl (carried_userRead reads front)
  | userDestroyed world destroys => exact .inl (carried_userDestroy destroys front)
  | arrived world arrives => exact .inl (carried_arrive roster.owned arrives front)

end Steps

end Libasock.ServiceFronts
