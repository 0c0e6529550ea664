import Libasock.ServiceStates

/-!
Descriptors in a running service. A connection has the descriptor it was created
with until its takeover gives it another one; an attempt that fails closes what
it opened and forgets it. The closes of registered connections are those of the
server, with the same stale number left behind.
-/

namespace Libasock.ServiceDescriptors
open ByteBlocks GuardedRuns NumberReuse ReturnCodes TsqueueModel ConnectionObjects WorkerWorld
  ReferenceCounts DescriptorOwnership SocketContents RegisteredConnections ServiceWorker
  ServiceReferences ServiceStates

section Attempts

variable {world after : World} {con : ConRef} {object : Object}

theorem tried_owners {state : AsockConState} {fd : Option Descriptor}
    (objects : after.objects = (world.put con (attempted object state fd)).objects) :
    assigned after none = Function.update (assigned world none) (some con) fd ∧
    ∀ holder, live after holder →
      (holder = some con ∧ state ≠ .failed) ∨ (holder ≠ some con ∧ live world holder) := by
  constructor
  · funext holder
    cases holder with
    | none => rfl
    | some other =>
        by_cases hit : other = con
        · subst hit
          simp [assigned, objects, put_here, attempted]
        · have away : some other ≠ some con := fun same => hit (Option.some.inj same)
          rw [Function.update_of_ne away]
          simp [assigned, objects, World.put, hit]
  · intro holder isLive
    cases holder with
    | none =>
        refine .inr ⟨?_, trivial⟩
        intro impossible
        cases impossible
    | some other =>
        obtain ⟨there, found, alive, unfailed⟩ := isLive
        rw [objects] at found
        by_cases hit : other = con
        · subst hit
          rw [put_here, Option.some.injEq] at found
          subst found
          exact .inl ⟨rfl, unfailed⟩
        · refine .inr ⟨fun same => hit (Option.some.inj same), there, ?_, alive, unfailed⟩
          simpa [World.put, hit] using found

theorem owned_tried (tried : Tried world after con object) (owned : OwnedWorld world none) :
    OwnedWorld after none := by
  cases tried with
  | refused objects table =>
      obtain ⟨assigns, alive⟩ := tried_owners objects
      unfold OwnedWorld
      rw [assigns, table]
      refine (owned.forget (some con)).fewer_live fun holder isLive => ?_
      exact ((alive holder isLive).resolve_left fun own => own.2 rfl).2
  | abandoned acquires objects table =>
      obtain ⟨assigns, alive⟩ := tried_owners objects
      unfold OwnedWorld
      rw [assigns, table]
      have closed := Owned.acquire_close (acquire_effect acquires).2.1 owned
      refine (closed.forget (some con)).fewer_live fun holder isLive => ?_
      exact ((alive holder isLive).resolve_left fun own => own.2 rfl).2
  | started state acquires begun objects table =>
      obtain ⟨assigns, alive⟩ := tried_owners objects
      unfold OwnedWorld
      rw [assigns, table]
      have given := Owned.acquire (acquire_effect acquires).2.1 owned (some con)
      refine given.fewer_live fun holder isLive => ?_
      exact (alive holder isLive).imp (fun own => own.1) fun other => other.2

theorem settled_tried (tried : Tried world after con object) (owned : OwnedWorld world none)
    (settled : SettledWorld world none) : SettledWorld after none := by
  cases tried with
  | refused objects table =>
      obtain ⟨assigns, alive⟩ := tried_owners objects
      unfold SettledWorld
      rw [assigns, table]
      refine (settled.forget (some con)).fewer_live fun holder isLive => ?_
      exact ((alive holder isLive).resolve_left fun own => own.2 rfl).2
  | abandoned acquires objects table =>
      obtain ⟨assigns, alive⟩ := tried_owners objects
      unfold SettledWorld
      rw [assigns, table]
      have closed := Settled.acquire_close (acquire_effect acquires).2.1 settled owned
      refine (closed.forget (some con)).fewer_live fun holder isLive => ?_
      exact ((alive holder isLive).resolve_left fun own => own.2 rfl).2
  | started state acquires begun objects table =>
      obtain ⟨assigns, alive⟩ := tried_owners objects
      unfold SettledWorld
      rw [assigns, table]
      have given := Settled.acquire (acquire_effect acquires).2.1 settled (some con)
      refine given.fewer_live fun holder isLive => ?_
      exact (alive holder isLive).imp (fun own => own.1) fun other => other.2

theorem tried_other {Part : Type} {part : Object → Part} (tried : Tried world after con object)
    {other : ConRef} (different : other ≠ con) :
    view part after other = view part world other := by
  cases tried with
  | refused objects | abandoned _ objects | started _ _ _ objects =>
      rw [view_objects objects, view_other _ different]

/-- A failed attempt leaves no descriptor, another one the descriptor it opened. -/
theorem tried_here {found : Object} (tried : Tried world after con object)
    (here : after.objects con = some found) :
    (found.con.mState = .failed → found.con.mSockDesc = none) ∧
      (found.con.mState ≠ .failed → ∃ fd, Serving after con fd) := by
  have same : ∀ state fd, after.objects = (world.put con (attempted object state fd)).objects →
      found = attempted object state fd := by
    intro state fd objects
    rw [objects, put_here, Option.some.injEq] at here
    exact here.symm
  cases tried with
  | refused objects =>
      rw [same _ _ objects]
      exact ⟨fun _ => rfl, fun unfailed => absurd rfl unfailed⟩
  | abandoned _ objects =>
      rw [same _ _ objects]
      exact ⟨fun _ => rfl, fun unfailed => absurd rfl unfailed⟩
  | @started _ fd _ state _ begun objects =>
      have equal := same _ _ objects
      refine ⟨fun failed => ?_, fun unfailed => ⟨fd, object_serving here ?_ unfailed⟩⟩
      · rw [equal] at failed
        rcases begun with rfl | rfl <;> cases failed
      · rw [equal]
        rfl

end Attempts

section Roster

variable {service after : Service} {label : Label}

/-- The service's users close no number late. -/
def NoStaleClose (service : Service) (label : Label) : Prop :=
  ∀ con ∈ label.destroyed, StaleFree service.world con

theorem all_live (covered : Covered service) (roster : Roster service.world none)
    (runs : service.pc ≠ .stopped) : AllLive service.world := by
  intro con member
  obtain ⟨fd, serving⟩ := roster.serving con member
  apply serving_live serving covered.freed
  apply registered_counter covered
  cases pc : service.pc <;> simp_all [registered]

theorem mayClose_runs {pc : Pc} (closing : mayClose pc = true) : pc ≠ .stopped := by
  rintro rfl
  cases closing

theorem taken_unlisted {index : Nat} {con : ConRef} (staged : Staged service)
    (pc : service.pc = .takingOver index)
    (here : service.world.mNewConnections.items[index]? = some con) :
    con ∉ service.world.mConnections.items := by
  intro member
  apply (taken_apart staged pc here).2
  apply List.mem_append_right
  simpa only [registered, pc] using member

theorem tried_roster {index : Nat} {con : ConRef} {middle : World} {object : Object}
    (staged : Staged service) (roster : Roster service.world none)
    (pc : service.pc = .takingOver index)
    (here : service.world.mNewConnections.items[index]? = some con)
    (tried : Tried service.world middle con object) (lists : SameLists service.world middle) :
    Roster middle none := by
  refine ⟨owned_tried tried roster.owned, lists.connections ▸ roster.single, ?_⟩
  intro other member
  rw [lists.connections] at member
  have different : other ≠ con := by
    rintro rfl
    exact taken_unlisted staged pc here member
  obtain ⟨fd, serving⟩ := roster.serving other member
  exact ⟨fd, serving_view serving (tried_other tried different)⟩

theorem created_roster {number : Nat} {answers : ObjectAnswers} (covered : Covered service)
    (roster : Roster service.world none)
    (creates : createAsockStep service number answers = some after) : Roster after.world none := by
  obtain ⟨fd, world, acquires, made⟩ := created_cases creates
  have lists := (acquire_references acquires).lists
  have objects := (acquire_effect acquires).1
  rcases made with rfl | ⟨made, fresh, rfl⟩
  · exact roster_frame roster (owned_acquire_close acquires roster.owned)
      (view_objects ((close_objects (some fd)).trans objects)) (by
        rw [(close_lists world (some fd)).connections, lists.connections])
  · have remembers := fresh.descriptor
    have owned : OwnedWorld ((world.add made).setHeld (world.created :: world.held)) none :=
      owned_keeps (owned_add acquires remembers roster.owned) (keeps_objects rfl) rfl
    have items : ((world.add made).setHeld (world.created :: world.held)).mConnections =
        service.world.mConnections := lists.connections
    refine ⟨owned, items ▸ roster.single, ?_⟩
    intro con member
    rw [items] at member
    obtain ⟨held, serving⟩ := roster.serving con member
    refine ⟨held, serving_view serving ?_⟩
    have born : con ≠ world.created := by
      rintro rfl
      obtain ⟨object, found, _⟩ := serving_object serving
      rw [lists.created, unborn_absent covered.placed] at found
      cases found
    rw [view_objects (setHeld_objects _ _), added_view made born, view_objects objects]

def connected (object : Object) (addr : List Byte) (serviceId : Int) : Object :=
  { object with con := { (addressed object addr serviceId).con with
      mState := .inProgress, mRefCounter := object.con.mRefCounter + 1 } }

theorem connectBegin_shape {con : ConRef} {addr : List Byte}
    (begins : connectBegin service con addr = some after) :
    ∃ object, service.world.objects con = some object ∧
      after.world.objects =
        (service.world.put con (connected object addr service.mServiceId)).objects ∧
      SameLists service.world after.world ∧ after.world.table = service.world.table ∧
      after.world.sockets = service.world.sockets := by
  simp only [connectBegin, Option.bind_eq_bind, Option.bind_eq_some_iff] at begins
  obtain ⟨object, found, result⟩ := begins
  cases result
  have lists := (put_lists service.world con (addressed object addr service.mServiceId)).trans
    ((setState_lists _ con .inProgress).trans (incr_lists _ con))
  have shape : ((service.world.put con (addressed object addr service.mServiceId)).setState con
      .inProgress).counterIncr con = { service.world.put con
        (connected object addr service.mServiceId) with
          stateLog := service.world.stateLog ++ [⟨con, object.con.mState, .inProgress⟩] } := by
    simp [World.setState, World.counterIncr, World.put, connected, addressed]
  exact ⟨object, found, by rw [shape], lists, by rw [shape]; rfl, by rw [shape]; rfl⟩

theorem connectBegin_roster {con : ConRef} {addr : List Byte}
    (idle : IdleConnect service (.userConnect con addr)) (roster : Roster service.world none)
    (begins : connectBegin service con addr = some after) :
    Roster after.world none ∧ Keeps service.world after.world := by
  obtain ⟨object, found, objects, lists, table, _⟩ := connectBegin_shape begins
  have unfailed : object.con.mState ≠ .failed := by
    rw [idle con rfl object found]
    decide
  have put : Keeps service.world
      (service.world.put con (connected object addr service.mServiceId)) :=
    keeps_put _ found rfl fun alive => ⟨alive.1, unfailed⟩
  have keeps : Keeps service.world after.world := put.trans (keeps_objects objects)
  refine ⟨⟨owned_keeps roster.owned keeps table, lists.connections ▸ roster.single, ?_⟩, keeps⟩
  intro other member
  rw [lists.connections] at member
  obtain ⟨fd, serving⟩ := roster.serving other member
  refine ⟨fd, ?_⟩
  by_cases hit : other = con
  · subst hit
    obtain ⟨there, foundThere, remembers, _⟩ := serving_object serving
    rw [found, Option.some.injEq] at foundThere
    subst foundThere
    have here : after.world.objects other =
        some (connected object addr service.mServiceId) := by rw [objects, put_here]
    exact object_serving here remembers (fun impossible => by cases impossible)
  · apply serving_view serving
    rw [view_objects objects, view_other _ hit]

theorem established_keeps {world : World} {con : ConRef} {fd : Descriptor}
    (serving : Serving world con fd) :
    Keeps world (world.setState con .established) ∧
      Serving (world.setState con .established) con fd := by
  obtain ⟨object, found, remembers, unfailed⟩ := serving_object serving
  let next : Object := { object with con := { object.con with mState := .established } }
  have objects : (world.setState con .established).objects = (world.put con next).objects := by
    simp only [World.setState, found, next]
  have put : Keeps world (world.put con next) :=
    keeps_put next found rfl fun alive => ⟨alive.1, unfailed⟩
  have here : (world.setState con .established).objects con = some next := by
    rw [objects, put_here]
  exact ⟨put.trans (keeps_objects objects),
    object_serving here remembers (fun impossible => by cases impossible)⟩

theorem established_roster {con : ConRef} (roster : Roster service.world none)
    (member : con ∈ service.world.mConnections.items) :
    Roster (service.world.setState con .established) none := by
  obtain ⟨fd, serving⟩ := roster.serving con member
  obtain ⟨keeps, now⟩ := established_keeps serving
  have items := congrArg Connections.items
    (setState_lists service.world con .established).connections
  refine ⟨owned_keeps roster.owned keeps (setState_table _ _ _), items ▸ roster.single, ?_⟩
  intro other listed
  rw [items] at listed
  by_cases hit : other = con
  · subst hit
    exact ⟨fd, now⟩
  · obtain ⟨otherFd, there⟩ := roster.serving other listed
    exact ⟨otherFd, serving_view there (view_setState_other _ hit)⟩

/-- What the stop path drops: the list it serves and the list it has still to take over. -/
theorem stop_unfailed (covered : Covered service) (staged : Staged service)
    (pc : service.pc = .ready) :
    let all := service.world.mConnections.items ++ service.world.mNewConnections.items
    (stopStep service).world = service.world.destroyAll all ∧ all.Nodup ∧
      (∀ con ∈ all, Unfailed service.world con) ∧
      ∀ con, (all.count con : Int) ≤ counter service.world con := by
  obtain ⟨listed, new⟩ := still_lists (show still service.pc = true by rw [pc]; rfl)
  have single := staged.single
  rw [List.append_assoc, new, listed] at single
  have both := (List.nodup_append.mp single).2.1
  have known : ∀ {con state}, view stateOf service.world con = some state → state ≠ .failed →
      Unfailed service.world con := by
    intro con state here different
    obtain ⟨object, found, same⟩ := Option.map_eq_some_iff.mp here
    exact ⟨object.con.mSockDesc, state, by simp [view, found, standing, ← same, stateOf], different⟩
  refine ⟨(destroyAll_append service.world _ _).symm, ?_, ?_, ?_⟩
  · exact List.nodup_append_comm.mp both
  · intro con member
    rcases List.mem_append.mp member with served | fresh
    · rcases staged.served con (listed ▸ served) with here | here
      · exact known here (by decide)
      · exact known here (by decide)
    · exact known (staged.underway con (List.mem_append_right _ (new ▸ fresh))) (by decide)
  · intro con
    have enough := covered.enough con
    simp only [holders, listed, new] at enough
    rw [List.count_append]
    omega

theorem stop_roster (covered : Covered service) (staged : Staged service)
    (roster : Roster service.world none) (pc : service.pc = .ready) :
    Roster (stopStep service).world none := by
  obtain ⟨same, single, unfailed, enough⟩ := stop_unfailed covered staged pc
  have owned := destroyAll_invariant (fun world => OwnedWorld world none) _ single unfailed
    covered.freed enough
    (fun _ _ _ owned found isLive => owned_destroy owned found fun _ => .inl isLive) roster.owned
  rw [same]
  exact roster_frame roster owned (view_destroyAll standing_uncounted _ _)
    (congrArg Connections.items (destroyAll_lists service.world _).connections)

theorem step_roster (covered : Covered service) (staged : Staged service)
    (roster : Roster service.world none) (idle : IdleConnect service label)
    (stale : NoStaleClose service label) (stepped : step service label = some after) :
    Roster after.world none := by
  cases step_moved stepped with
  | closed number peer pc closing =>
      exact roster_close roster (all_live covered roster (mayClose_runs closing)) number
  | turned | began => exact roster
  | created _ creates => exact created_roster covered roster creates
  | gaveUp index con middle object pc here tries found failed =>
      obtain ⟨before, foundBefore⟩ := taken_object covered pc here
      obtain ⟨tried, lists⟩ := tries_cases foundBefore tries
      have middleRoster := tried_roster staged roster pc here tried lists
      have forgets := (tried_here tried found).1 failed
      refine roster_frame middleRoster (owned_destroy middleRoster.owned found fun _ => ?_)
        (view_destroy standing_uncounted _ _)
        (congrArg Connections.items (destroy_lists middle con).connections)
      refine .inr fun fd remembers => ?_
      rw [forgets] at remembers
      cases remembers
  | @tookOver outcome granted index con middle object pc here tries found unfailed =>
      obtain ⟨before, foundBefore⟩ := taken_object covered pc here
      obtain ⟨tried, lists⟩ := tries_cases foundBefore tries
      have middleRoster := tried_roster staged roster pc here tried lists
      obtain ⟨fd, serving⟩ := (tried_here tried found).2 unfailed
      have absent := taken_unlisted staged pc here
      rw [← lists.connections] at absent
      rcases pushed_items middle.mConnections con granted with more | same
      · exact roster_push middleRoster serving absent rfl rfl more
      · exact roster_neutral middleRoster (neutral_objects rfl rfl) same
  | cleared | connectPushed => exact roster_neutral roster (neutral_objects rfl rfl) rfl
  | established con number mask pc known => exact established_roster roster (found_listed known)
  | read number world pc reads =>
      exact roster_neutral roster (neutral_readData reads)
        (congrArg Connections.items (readData_references reads).lists.connections)
  | stopped pc => exact stop_roster covered staged roster pc
  | connectBegun _ begins => exact (connectBegin_roster idle roster begins).1
  | userRead world reads =>
      exact roster_neutral roster (neutral_userRead reads)
        (congrArg Connections.items (userRead_references reads).lists.connections)
  | userDestroyed world destroys =>
      exact roster_frame roster (userDestroy_owned roster.owned covered.freed (stale _ rfl) destroys)
        (userDestroy_views standing_uncounted destroys)
        (congrArg Connections.items (userDestroy_effect destroys).1)
  | arrived world arrives =>
      exact roster_neutral roster (neutral_arrive arrives)
        (congrArg Connections.items (arrive_references arrives).lists.connections)

theorem configured_roster (mServiceId : Int) : Roster (Service.configured mServiceId).world none := by
  have nobody : ∀ holder, assigned (Service.configured mServiceId).world none holder = none := by
    intro holder
    cases holder <;> rfl
  refine ⟨⟨?_, ?_, ?_, ?_, ?_⟩, List.nodup_nil, ?_⟩
  · intro number acquisition isOpen
    cases isOpen
  · intro holder fd remembers
    rw [nobody] at remembers
    cases remembers
  · intro left right fd other remembers
    rw [nobody] at remembers
    cases remembers
  · intro holder fd _ remembers
    rw [nobody] at remembers
    cases remembers
  · intro holder fd number remembers
    rw [nobody] at remembers
    cases remembers
  · intro con member
    cases member

end Roster

section Closes

variable {service after : Service} {label : Label}

/-- The user who drops a last reference drops that of a connection whose descriptor is still its
own. -/
structure ClosesOwn (service : Service) (label : Label) : Prop where
  idle : IdleConnect service label
  own : ∀ con ∈ label.destroyed, OwnClose service.world con

instance (service : Service) (label : Label) : Decidable (ClosesOwn service label) :=
  decidable_of_iff (IdleConnect service label ∧
    (∀ con ∈ label.destroyed, ∀ object ∈ service.world.objects con, object.con.mRefCounter = 1 →
      object.con.mState = .failed → object.con.mSockDesc = none))
    ⟨fun ⟨idle, own⟩ => ⟨idle, own⟩, fun own => ⟨own.idle, own.own⟩⟩

theorem closesOwn_fresh (own : ClosesOwn service label) : NoStaleClose service label :=
  fun con gone => ownClose_staleFree (own.own con gone)

/-- Every step but a close, which may close what it has already closed. -/
theorem step_settled (covered : Covered service) (staged : Staged service)
    (roster : Roster service.world none) (own : ClosesOwn service label)
    (closes : closedNumber service label = none)
    (stepped : step service label = some after) (settled : SettledWorld service.world none) :
    SettledWorld after.world none := by
  cases step_moved stepped with
  | closed number peer pc closing isStill asked =>
      rw [closes] at asked
      cases asked
  | turned | began => exact settled
  | created _ creates =>
      obtain ⟨fd, world, acquires, rfl | ⟨made, fresh, rfl⟩⟩ := created_cases creates
      · exact settled_acquire_close acquires settled roster.owned
      · exact settled_keeps (settled_add acquires fresh.descriptor settled) (keeps_objects rfl) rfl
  | gaveUp index con middle object pc here tries found failed =>
      obtain ⟨before, foundBefore⟩ := taken_object covered pc here
      obtain ⟨tried, _⟩ := tries_cases foundBefore tries
      exact settled_destroy (settled_tried tried roster.owned settled)
        (owned_tried tried roster.owned) found fun _ => .inr ((tried_here tried found).1 failed)
  | tookOver index con middle object pc here tries found unfailed =>
      obtain ⟨before, foundBefore⟩ := taken_object covered pc here
      obtain ⟨tried, _⟩ := tries_cases foundBefore tries
      exact settled_keeps (settled_tried tried roster.owned settled) (keeps_objects rfl) rfl
  | cleared | connectPushed => exact settled_keeps settled (keeps_objects rfl) rfl
  | established con number mask pc known =>
      obtain ⟨fd, serving⟩ := roster.serving con (found_listed known)
      exact settled_keeps settled (established_keeps serving).1 (setState_table _ _ _)
  | read number world pc reads =>
      have neutral := neutral_readData reads
      exact settled_keeps settled neutral.keeps neutral.table
  | stopped pc =>
      obtain ⟨same, single, unfailed, enough⟩ := stop_unfailed covered staged pc
      have both := destroyAll_invariant
        (fun world => OwnedWorld world none ∧ SettledWorld world none) _ single unfailed
        covered.freed enough
        (fun _ _ _ held found isLive => ⟨owned_destroy held.1 found fun _ => .inl isLive,
          settled_destroy held.2 held.1 found fun _ => .inl isLive⟩) ⟨roster.owned, settled⟩
      rw [same]
      exact both.2
  | connectBegun _ begins =>
      obtain ⟨_, _, _, _, table, _⟩ := connectBegin_shape begins
      exact settled_keeps settled (connectBegin_roster own.idle roster begins).2 table
  | userRead world reads =>
      have neutral := neutral_userRead reads
      exact settled_keeps settled neutral.keeps neutral.table
  | userDestroyed world destroys =>
      exact userDestroy_settled settled roster.owned covered.freed (own.own _ rfl) destroys
  | arrived world arrives =>
      have neutral := neutral_arrive arrives
      exact settled_keeps settled neutral.keeps neutral.table

theorem configured_settled (mServiceId : Int) :
    SettledWorld (Service.configured mServiceId).world none := by
  refine ⟨⟨List.nodup_nil, ?_⟩, ?_, ?_⟩ <;> intro call member <;> cases member

end Closes

end Libasock.ServiceDescriptors
