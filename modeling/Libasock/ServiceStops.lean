import Libasock.ServiceCounts
import Libasock.VisibleStops

/-!
The stop of a service whose connections are passed to `asock_connect` once. By
the state of a connection the worker has a reference to it or not, from the
increment of `asock_connect` to the failed attempt or the close.
-/

namespace Libasock.ServiceStops
open ByteBlocks GuardedRuns NumberReuse ReturnCodes ConnectionObjects WorkerWorld ReferenceCounts
  DescriptorOwnership SocketContents RegisteredConnections ServiceWorker ServiceReferences
  ServiceStates ServiceCounts VisibleStops

variable {service after : Service} {label : Label} {con other : ConRef} {world middle : World}

/-- The references the worker and the calls of `asock_connect` have by the state of the connection. -/
def share (world : World) (con : ConRef) : Int :=
  match view stateOf world con with
  | some .inProgress | some .established => 1
  | _ => 0

/-- A counter is what the users hold and what its state says the worker has. -/
def Levelled (service : Service) : Prop :=
  ∀ con, counter service.world con = service.world.held.count con + share service.world con

theorem share_same (same : view stateOf middle con = view stateOf world con) :
    share middle con = share world con := by
  rw [share, same, share]

theorem share_served (served : Served world con) : share world con = 1 := by
  rcases served with here | here <;> rw [share, here]

theorem levelled_same (levelled : Levelled service)
    (same : SameReferences service.world after.world)
    (states : view stateOf after.world = view stateOf service.world) : Levelled after := by
  intro con
  rw [same.counters, same.lists.held, share_same (congrFun states con)]
  exact levelled con

/-- One connection changes its state and its counter together. -/
theorem levelled_at (con : ConRef) (levelled : Levelled service) (held : after.world.held = service.world.held)
    (others : ∀ other, other ≠ con → counter after.world other = counter service.world other ∧
      view stateOf after.world other = view stateOf service.world other)
    (here : counter after.world con - counter service.world con =
      share after.world con - share service.world con) : Levelled after := by
  intro other
  have level := levelled other
  rw [held]
  by_cases hit : other = con
  · subst hit
    omega
  · obtain ⟨counters, states⟩ := others other hit
    rw [counters, share_same states]
    exact level

theorem closeNumber_levelled (levelled : Levelled service) (staged : Staged service)
    (closing : mayClose service.pc = true) (number : Nat) (peer : Bool) (pc : Pc) :
    Levelled (closeNumber service number peer pc) := by
  obtain ⟨listed, _⟩ := still_lists (mayClose_still closing)
  obtain ⟨_, same⟩ | ⟨con, index, object, fd, known, here, found, _, _, same⟩ :=
    close_found service.world number
  · have objects : (service.world.closeConnection number).2.objects = service.world.objects := by
      rw [same, forgetNew_objects]
    intro con
    have held : (service.world.closeConnection number).2.held = service.world.held :=
      (close_counts service.world con number).2.2.1
    simp only [closeNumber, held]
    rw [counter_congr _ con objects, share_same (congrFun (view_objects objects) con)]
    exact levelled con
  · have foundThere : (service.world.forgetNew number).objects con = some object := by
      rw [forgetNew_objects]
      exact found
    have served := staged.served con (listed ▸ List.mem_of_getElem? here)
    have counts : ∀ other, counter (service.world.closeConnection number).2 other =
        counter service.world other - if other = con then 1 else 0 := by
      intro other
      obtain ⟨less, _⟩ := closeAt_counts other foundThere
        (by rw [forgetNew_connections]; exact here)
      rw [same, less, counter_congr _ other (forgetNew_objects service.world number)]
    have failed : view stateOf (service.world.closeConnection number).2 con = some .failed := by
      rw [same]
      simp only [World.closeAt]
      rw [view_objects (setConnections_objects _ _), view_destroy stateOf_uncounted,
        view_objects (close_objects _)]
      have before : view stateOf (service.world.forgetNew number) con = some object.con.mState := by
        simp [view, foundThere, stateOf]
      exact setState_here .failed before
    refine levelled_at con levelled (close_counts service.world con number).2.2.1 ?_ ?_
    · intro other different
      refine ⟨by simp [closeNumber, counts, different], ?_⟩
      apply close_states
      rw [known]
      exact fun hit => different (Option.some.inj hit).symm
    · have gone : share (service.world.closeConnection number).2 con = 0 := by
        rw [share, failed]
      simp only [closeNumber, counts, if_true, gone, share_served served]
      omega

theorem created_levelled {number : Nat} {answers : ObjectAnswers} (covered : Covered service)
    (levelled : Levelled service) (creates : createAsockStep service number answers = some after) :
    Levelled after := by
  have nobody : counter service.world service.world.created = 0 := by
    rw [counter, unborn_absent covered.placed]
  have unheld : service.world.held.count service.world.created = 0 := by
    have enough := covered.enough service.world.created
    simp only [holders] at enough
    omega
  obtain ⟨fd, world, acquires, made⟩ := created_cases creates
  have same := acquire_references acquires
  rcases made with rfl | ⟨made, new, rfl⟩
  · exact levelled_same levelled (same.trans (close_references world (some fd)))
      (view_objects ((close_objects _).trans (acquire_effect acquires).1))
  · have idle : share (world.add made) world.created = 0 := by
      rw [share, view, added_here, Option.map_some, stateOf, new.idle]
    intro con
    have level := levelled con
    have counts : counter (world.add made) con =
        if con = world.created then 1 else counter service.world con := by
      rw [counter_add, new.counted, same.counters]
    have held : (world.created :: world.held).count con =
        service.world.held.count con + if world.created = con then 1 else 0 := by
      rw [List.count_cons, same.lists.held]
      simp only [beq_iff_eq]
    have kept : ∀ held, share ((world.add made).setHeld held) con = share (world.add made) con :=
      fun _ => share_same rfl
    rw [setHeld_items, counter_setHeld, counts, held, kept]
    rw [← same.lists.created] at nobody unheld
    by_cases hit : con = world.created
    · subst hit
      simp only [if_true, idle]
      omega
    · have old : share (world.add made) con = share service.world con := by
        refine share_same ((added_view made hit).trans ?_)
        rw [view_objects (acquire_effect acquires).1]
      simp only [hit, Ne.symm hit, if_false, old]
      omega

theorem gaveUp_levelled {index : Nat} {outcome : ConnectOutcome} {object : Object}
    (covered : Covered service) (staged : Staged service) (levelled : Levelled service)
    (pc : service.pc = .takingOver index)
    (here : service.world.mNewConnections.items[index]? = some con)
    (tries : tryConnectToPeer service.world con outcome = some middle)
    (found : middle.objects con = some object) (failed : object.con.mState = .failed) (next : Pc) :
    Levelled { service with world := middle.destroyAsock con, pc := next } := by
  obtain ⟨before, known⟩ := taken_object covered pc here
  have same := tries_references known tries
  have begun : share service.world con = 1 :=
    share_served (.inl (staged.underway con (List.mem_append_right _ (by rw [taken pc here]; simp))))
  have gone : share (middle.destroyAsock con) con = 0 := by
    rw [share, view_destroy stateOf_uncounted, view, found, Option.map_some, stateOf, failed]
  refine levelled_at con levelled ((same.lists.trans (destroy_lists middle con)).held) ?_ ?_
  · intro other different
    refine ⟨by simp [counter_destroy found, same.counters, different], ?_⟩
    exact (congrFun (view_destroy stateOf_uncounted middle con) other).trans
      (tries_states known tries different)
  · simp only [counter_destroy found, same.counters, if_true, gone, begun]
    omega

theorem tookOver_levelled {index : Nat} {outcome : ConnectOutcome} {object : Object}
    (covered : Covered service) (staged : Staged service) (levelled : Levelled service)
    (pc : service.pc = .takingOver index)
    (here : service.world.mNewConnections.items[index]? = some con)
    (tries : tryConnectToPeer service.world con outcome = some middle)
    (found : middle.objects con = some object) (unfailed : object.con.mState ≠ .failed)
    (list : Connections) (next : Pc) :
    Levelled { service with world := middle.setConnections list, pc := next } := by
  obtain ⟨before, known⟩ := taken_object covered pc here
  have same := tries_references known tries
  have begun : share service.world con = 1 :=
    share_served (.inl (staged.underway con (List.mem_append_right _ (by rw [taken pc here]; simp))))
  have reached : share middle con = 1 := by
    have now : view stateOf middle con = some object.con.mState := by simp [view, found, stateOf]
    rcases tries_reaches known tries found unfailed with there | there
    · exact share_served (.inl (by rw [now, there]))
    · exact share_served (.inr (by rw [now, there]))
  refine levelled_at con levelled same.lists.held ?_ ?_
  · exact fun other different => ⟨same.counters other, tries_states known tries different⟩
  · have kept : share (middle.setConnections list) con = share middle con := share_same rfl
    simp only [counter_setConnections, same.counters, kept, reached, begun]
    omega

theorem connectBegin_levelled {addr : List Byte} (levelled : Levelled service)
    (idle : IdleConnect service (.userConnect con addr))
    (begins : connectBegin service con addr = some after) : Levelled after := by
  obtain ⟨object, found, _, _, lists, _, others, now, _⟩ := connectBegin_states begins
  obtain ⟨_, foundThere, objects, _⟩ := ServiceDescriptors.connectBegin_shape begins
  rw [found, Option.some.injEq] at foundThere
  subst foundThere
  have isIdle : share service.world con = 0 := by
    rw [share, view, found, Option.map_some, stateOf, idle con rfl object found]
  have begun : share after.world con = 1 := share_served (.inl now)
  have counts : ∀ other, counter after.world other =
      if other = con then object.con.mRefCounter + 1 else counter service.world other := by
    intro other
    rw [counter_congr (service.world.put con _) other objects, counter_put]
    rfl
  refine levelled_at con levelled lists.held ?_ ?_
  · exact fun other different => ⟨by rw [counts, if_neg different], others other different⟩
  · rw [counts, if_pos rfl, counter_some found, isIdle, begun]
    omega

theorem userDestroy_levelled (levelled : Levelled service) (covered : Covered service)
    (destroys : service.world.userDestroy con = some world) :
    Levelled { service with world := world } := by
  have states := userDestroy_views stateOf_uncounted destroys
  obtain ⟨holds, rfl⟩ := userDestroy_cases _ destroys
  have listed := List.count_pos_iff.mpr holds
  obtain ⟨object, found⟩ := counted_object (Int.ne_of_gt (held_counter covered holds))
  intro other
  have level := levelled other
  have counts : counter ((service.world.setHeld (service.world.held.erase con)).destroyAsock con)
      other = counter service.world other - if other = con then 1 else 0 := counter_destroy found
  have held := (destroy_lists (service.world.setHeld (service.world.held.erase con)) con).held
  rw [share_same (congrFun states other), counts, held, setHeld_items, List.count_erase]
  simp only [beq_iff_eq]
  by_cases hit : other = con
  · subst hit
    simp only [if_true]
    omega
  · simp only [hit, Ne.symm hit, if_false]
    omega

theorem step_levelled (covered : Covered service) (staged : Staged service)
    (idle : IdleConnect service label) (stepped : step service label = some after)
    (levelled : Levelled service) (runs : after.pc ≠ .stopped) : Levelled after := by
  cases step_moved stepped with
  | closed number peer pc closing => exact closeNumber_levelled levelled staged closing number peer pc
  | turned | began | cleared | connectPushed => exact levelled
  | created _ creates => exact created_levelled covered levelled creates
  | gaveUp index con middle object pc here tries found failed =>
      exact gaveUp_levelled covered staged levelled pc here tries found failed _
  | tookOver index con middle object pc here tries found unfailed =>
      exact tookOver_levelled covered staged levelled pc here tries found unfailed _ _
  | established con number mask pc known =>
      have isStill : still service.pc = true := by rw [pc]; rfl
      have served := staged.served con
        ((still_lists isStill).1 ▸ found_listed known)
      obtain ⟨state, here, _⟩ := served_fails served
      refine levelled_at con levelled (setState_lists service.world con .established).held ?_ ?_
      · exact fun other different => ⟨counter_setState _, view_setState_other _ different⟩
      · have now : share (service.world.setState con .established) con = 1 :=
          share_served (.inr (setState_here .established here))
        simp only [counter_setState, now, share_served served]
        omega
  | read number world pc reads =>
      exact levelled_same levelled (readData_references reads) (neutral_states reads).1
  | stopped => exact absurd rfl runs
  | connectBegun _ begins => exact connectBegin_levelled levelled idle begins
  | userRead world reads =>
      obtain ⟨object, _, _, _, _, found, _, rfl⟩ := userRead_cases service.world reads
      exact levelled_same levelled (userRead_references reads) (view_put _ found rfl)
  | userDestroyed world destroys => exact userDestroy_levelled levelled covered destroys
  | arrived world arrives =>
      obtain ⟨_, _, rfl⟩ := Option.map_eq_some_iff.mp arrives
      exact levelled_same levelled (arrive_references arrives) rfl

/-- When the worker leaves its loop, what it serves and takes over has not failed. -/
theorem levelled_shared (covered : Covered service) (staged : Staged service)
    (held : service.world.held.Nodup) (levelled : Levelled service)
    (pc : service.pc = .ready) : Shared service.world
      (service.world.mConnections.items ++ service.world.mNewConnections.items) := by
  obtain ⟨listed, new⟩ := still_lists (show still service.pc = true by rw [pc]; rfl)
  intro con holds object found inUse
  have once := List.count_eq_one_of_mem held holds
  have level := levelled con
  have state : view stateOf service.world con = some object.con.mState := by
    simp [view, found, stateOf]
  rw [counter_some found, once, share, state] at level
  refine ⟨?_, ?_, ?_⟩
  · cases released : object.released with
    | false => rfl
    | true =>
        have zero := (covered.freed con object found).freed.mp released
        have positive := held_counter covered holds
        rw [counter_some found] at positive
        omega
  · cases value : object.con.mState with
    | idle => exact absurd value inUse
    | inProgress | established =>
        simp only [value] at level
        refine ⟨fun single => by omega, fun impossible => by cases impossible⟩
    | failed =>
        simp only [value] at level
        exact ⟨fun _ => rfl, fun _ => by omega⟩
  · intro failed member
    rw [failed] at state
    rcases List.mem_append.mp member with served | waits
    · rcases staged.served con (listed ▸ served) with here | here <;>
        (rw [state] at here; cases here)
    · have here := staged.underway con (List.mem_append_right _ (new ▸ waits))
      rw [state] at here
      cases here

theorem service_stop_ends {mServiceId : Int}
    (run : GuardedRun step IdleConnect (.configured mServiceId) service)
    (stops : step service .stop = some after) :
    EndedVisibly after.world ↔ Unserved service.world := by
  obtain ⟨⟨covered, staged, once⟩, levelled⟩ := run.invariant_with
    (fun service => Covered service ∧ Staged service ∧ HeldOnce service.world)
    (fun service => service.pc ≠ .stopped → Levelled service)
    (fun _ _ _ held idle stepped => ⟨step_covered held.1 stepped,
      step_staged held.1 held.2.1 idle stepped, hands_once (step_hands held.1 stepped) held.2.2⟩)
    (fun _ _ _ held levelled idle stepped runs => step_levelled held.1 held.2.1 idle stepped
      (levelled fun pc => runs (stopped_stays stepped pc)) runs)
    ⟨configured_covered mServiceId, (configured_staged mServiceId).1, List.nodup_nil,
      fun con member => by cases member⟩
    (fun _ con => rfl)
  have worked := worker_step rfl stops
  cases pc : service.pc <;> simp only [workerStep, pc, reduceCtorEq, Option.some.injEq] at worked
  subst worked
  have runs : service.pc ≠ .stopped := by
    rw [pc]
    intro impossible
    cases impossible
  have ended := stop_ends _ (levelled_shared covered staged once.1 (levelled runs) pc)
  rwa [destroyAll_append] at ended

end Libasock.ServiceStops
