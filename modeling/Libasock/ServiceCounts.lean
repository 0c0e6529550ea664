import Libasock.ServiceDescriptors

/-!
The count of a service's references is exact. `ServiceReferences` shows what a
step can add to a counter beyond the holders: an entry of `m_new_connections`
that a close by number forgets, and a push without memory. Where descriptors are
distinct and events come for registered connections a close forgets nobody.
-/

namespace Libasock.ServiceCounts
open ByteBlocks GuardedRuns NumberReuse ReturnCodes ConnectionObjects WorkerWorld ReferenceCounts
  DescriptorOwnership SocketContents RegisteredConnections ServiceWorker ServiceReferences
  ServiceStates ServiceDescriptors

def numberOf (world : World) (con : ConRef) : Option Nat :=
  (assigned world none (some con)).map fun fd => fd.number

/-- The descriptors of the connections in the two lists. -/
def descriptors (service : Service) : List Nat :=
  (service.world.mConnections.items ++ service.world.mNewConnections.items).filterMap
    (numberOf service.world)

/-- The `event_fd` of the turn of the event loop. -/
def eventFd : Pc → Option Nat
  | .writable number _ | .handling number _ | .reading number => some number
  | _ => none

def reported : Label → Option Nat
  | .event number _ => some number
  | _ => none

def pushed : Label → Option ConRef
  | .userConnectPush con _ => some con
  | _ => none

/-- Allocations succeed, descriptors are distinct and events are reported for registered
connections. -/
structure Assumed (service : Service) (label : Label) : Prop where
  granted : refused label = false
  distinct : still service.pc = true → (descriptors service).Nodup
  watched : ∀ number ∈ reported label, service.world.conBySockDesc number ≠ none

/-- No connection that remembers the number of a turn of the event loop is pushed in the middle of
the turn, which may have closed the number already. -/
structure Orderly (service : Service) (label : Label) : Prop extends Assumed service label where
  apart : ∀ con ∈ pushed label, ∀ number ∈ eventFd service.pc,
    numberOf service.world con ≠ some number

instance (service : Service) (label : Label) : Decidable (Assumed service label) :=
  decidable_of_iff (refused label = false ∧
    (still service.pc = true → (descriptors service).Nodup) ∧
    ∀ number ∈ reported label, service.world.conBySockDesc number ≠ none)
    ⟨fun ⟨granted, distinct, watched⟩ => ⟨granted, distinct, watched⟩,
      fun assumed => ⟨assumed.granted, assumed.distinct, assumed.watched⟩⟩

instance (service : Service) (label : Label) : Decidable (Orderly service label) :=
  decidable_of_iff (Assumed service label ∧
    ∀ con ∈ pushed label, ∀ number ∈ eventFd service.pc, numberOf service.world con ≠ some number)
    ⟨fun ⟨assumed, apart⟩ => ⟨assumed, apart⟩,
      fun orderly => ⟨orderly.toAssumed, orderly.apart⟩⟩

/-- The lists a connection is in, and the user who has not destroyed it. -/
def owners (service : Service) (con : ConRef) : Nat :=
  service.world.mNewConnections.items.count con + service.world.mConnections.items.count con +
    if con ∈ service.world.held then 1 else 0

structure ExactCounts (service : Service) : Prop where
  /-- At every moment, also inside `asock_connect` and a takeover. -/
  holders : service.pc ≠ .stopped → ∀ con, counter service.world con = holders service con
  /-- Between the steps. -/
  owners : still service.pc = true → ∀ con, con ∉ service.connecting →
    counter service.world con = owners service con
  positive : ∀ con, 0 ≤ counter service.world con
  released : still service.pc = true → ∀ con, con ∉ service.connecting →
    ∀ object, service.world.objects con = some object →
      (object.released = true ↔ ServiceCounts.owners service con = 0)

/-- No user holds a connection twice, or one that does not exist yet. -/
def HeldOnce (world : World) : Prop :=
  world.held.Nodup ∧ ∀ con ∈ world.held, con < world.created

/-- No connection waiting to be taken over has the number of the event under way. -/
structure Tallied (service : Service) : Prop where
  level : service.pc ≠ .stopped → ∀ con, surplus service con = 0
  once : HeldOnce service.world
  clear : ∀ number ∈ eventFd service.pc, ∀ con ∈ service.world.mNewConnections.items,
    numberOf service.world con ≠ some number

variable {service after : Service} {label : Label} {world : World} {con : ConRef} {number : Nat}

section Numbers

theorem has_number : world.hasSockDesc number con = true ↔ numberOf world con = some number := by
  unfold numberOf assigned World.hasSockDesc
  cases found : world.objects con with
  | none => simp [found]
  | some object =>
      cases remembers : object.con.mSockDesc with
      | none => simp [found, remembers]
      | some fd => simp [found, remembers]

theorem numberOf_assigned {next : World} (same : assigned next none = assigned world none) :
    numberOf next = numberOf world := by
  funext con
  simp only [numberOf, same]

/-- Where descriptors are distinct nobody waits under the number of a registered connection. -/
theorem distinct_clear (distinct : (descriptors service).Nodup)
    (listed : con ∈ service.world.mConnections.items)
    (numbered : numberOf service.world con = some number) :
    ∀ waiting ∈ service.world.mNewConnections.items,
      numberOf service.world waiting ≠ some number := by
  intro waiting member same
  rw [descriptors, List.filterMap_append, List.nodup_append] at distinct
  exact distinct.2.2 number (List.mem_filterMap.mpr ⟨con, listed, numbered⟩) number
    (List.mem_filterMap.mpr ⟨waiting, member, same⟩) rfl

theorem clear_forgets (clear : ∀ con ∈ world.mNewConnections.items,
    numberOf world con ≠ some number) : world.forgetNew number = world := by
  apply forgetNew_unused
  intro waiting member
  cases has : world.hasSockDesc number waiting with
  | false => rfl
  | true => exact absurd (has_number.mp has) (clear waiting member)

end Numbers

section Turns

theorem setState_assigned (world : World) (con : ConRef) (state : AsockConState) :
    assigned (world.setState con state) none = assigned world none := by
  funext holder
  cases holder with
  | none => rfl
  | some other =>
      unfold World.setState
      cases found : world.objects con with
      | none => rfl
      | some object =>
          by_cases same : other = con
          · subst same
            simp [assigned, World.put, found]
          · simp [assigned, World.put, same]

/-- A step of the worker that stays in its turn, or ends it. -/
structure Stays (before after : Service) : Prop where
  turn : eventFd after.pc = none ∨ eventFd after.pc = eventFd before.pc
  numbers : eventFd after.pc ≠ none → numberOf after.world = numberOf before.world
  fewer : ∀ con ∈ after.world.mNewConnections.items, con ∈ before.world.mNewConnections.items

theorem clear_stays (stays : Stays service after)
    (clear : ∀ number ∈ eventFd service.pc, ∀ con ∈ service.world.mNewConnections.items,
      numberOf service.world con ≠ some number) :
    ∀ number ∈ eventFd after.pc, ∀ con ∈ after.world.mNewConnections.items,
      numberOf after.world con ≠ some number := by
  intro number current con member
  have inside : eventFd after.pc ≠ none := by
    rw [current]
    intro impossible
    cases impossible
  rw [stays.numbers inside]
  exact clear number (stays.turn.resolve_left inside ▸ current) con (stays.fewer con member)

theorem turned_stays (pc : Pc) (turn : eventFd pc = none ∨ eventFd pc = eventFd service.pc) :
    Stays service { service with pc := pc } :=
  ⟨turn, fun _ => rfl, fun _ member => member⟩

theorem closed_stays (number : Nat) (peer : Bool) {pc : Pc}
    (turn : eventFd pc = none ∨ eventFd pc = eventFd service.pc) :
    Stays service (closeNumber service number peer pc) := by
  refine ⟨turn, fun _ => numberOf_assigned ((close_keeps service.world number).assigned none), ?_⟩
  intro con member
  obtain ⟨_, new, _⟩ := close_counts service.world con number
  simp only [closeNumber, new] at member
  exact (forgetNew_sublist service.world number).subset member

theorem neutral_stays {next : World} (neutral : Neutral service.world next)
    (new : next.mNewConnections = service.world.mNewConnections) :
    Stays service { service with world := next } :=
  ⟨.inr rfl, fun _ => numberOf_assigned (neutral.keeps.assigned none), fun _ member => new ▸ member⟩

theorem created_stays {answers : ObjectAnswers} (outside : eventFd service.pc = none)
    (creates : createAsockStep service number answers = some after) : Stays service after := by
  obtain ⟨fd, world, acquires, rfl | ⟨made, _, rfl⟩⟩ := created_cases creates
  · have new := ((acquire_references acquires).lists.trans (close_lists world (some fd))).new
    exact ⟨.inl outside, fun inside => absurd outside inside, fun con member => new ▸ member⟩
  · have new := (acquire_references acquires).lists.new
    exact ⟨.inl outside, fun inside => absurd outside inside, fun con member => new ▸ member⟩

theorem takeOver_stays {index : Nat} {outcome : ConnectOutcome} {granted : Bool}
    (covered : Covered service) (pc : service.pc = .takingOver index)
    (takes : takeOverStep service index outcome granted = some after) : Stays service after := by
  simp only [takeOverStep, Option.bind_eq_bind, Option.bind_eq_some_iff] at takes
  obtain ⟨con, here, middle, tries, object, found, result⟩ := takes
  obtain ⟨before, known⟩ := taken_object covered pc here
  have lists := (tries_cases known tries).2
  split at result
  · cases result
    refine ⟨.inl rfl, fun inside => absurd rfl inside, fun con member => ?_⟩
    rwa [(lists.trans (destroy_lists middle _)).new] at member
  · cases result
    refine ⟨.inl rfl, fun inside => absurd rfl inside, fun con member => ?_⟩
    rwa [setConnections_new, lists.new] at member

theorem sockError_stays {mask : EventMask} {answer : SockError}
    (pc : service.pc = .writable number mask) :
    Stays service (sockErrorStep service number mask answer) := by
  have turn : eventFd (.handling number mask) = none ∨
      eventFd (.handling number mask) = eventFd service.pc := .inr (by rw [pc]; rfl)
  unfold sockErrorStep
  split
  case h_1 => exact turned_stays _ turn
  case h_2 con known =>
    cases answer with
    | unreadable => exact closed_stays _ _ turn
    | noError =>
        refine ⟨turn, fun _ => numberOf_assigned (setState_assigned _ _ _), fun con member => ?_⟩
        rwa [(setState_lists service.world _ .established).new] at member
    | error => exact closed_stays _ _ (.inl rfl)

theorem handle_stays {mask : EventMask} (pc : service.pc = .handling number mask) :
    Stays service (handleStep service number mask) := by
  unfold handleStep
  split
  · exact closed_stays _ _ (.inl rfl)
  · split
    · exact turned_stays _ (.inr (by rw [pc]; rfl))
    · exact turned_stays _ (.inl rfl)

theorem closeRegistered_stays {cause : Object → Bool}
    (closes : closeRegistered service con cause = some after) : Stays service after := by
  simp only [closeRegistered, Option.bind_eq_bind, Option.bind_eq_some_iff] at closes
  obtain ⟨object, found, fd, remembers, result⟩ := closes
  split at result
  · cases result
    exact closed_stays _ _ (.inl rfl)
  · cases result

/-- A step of the worker begins a turn, or stays in it. -/
theorem worker_turn (covered : Covered service) (worked : workerStep service label = some after) :
    Stays service after ∨
    (∃ number ∈ reported label, eventFd after.pc = some number ∧ service.pc = .ready ∧
      after.world = service.world) := by
  unfold workerStep at worked
  split at worked
  case h_1 =>
    cases worked
    exact .inl (turned_stays _ (.inl rfl))
  case h_2 pc => exact .inl (created_stays (by rw [pc]; rfl) worked)
  case h_3 pc => exact .inl (created_stays (by rw [pc]; rfl) worked)
  case h_4 =>
    cases worked
    exact .inl (turned_stays _ (.inl rfl))
  case h_5 pc => exact .inl (takeOver_stays covered pc worked)
  case h_6 index pc =>
    split at worked
    · cases worked
      exact .inl ⟨.inl rfl, fun _ => rfl, fun con member => by cases member⟩
    · cases worked
  case h_7 number mask pc =>
    cases worked
    refine .inr ⟨number, rfl, ?_, pc, ?_⟩ <;> unfold eventStep <;> split <;> rfl
  case h_8 number mask answer pc =>
    cases worked
    exact .inl (sockError_stays pc)
  case h_9 number mask pc =>
    cases worked
    exact .inl (handle_stays pc)
  case h_10 number count answer pc =>
    obtain ⟨next, reads, rfl⟩ := Option.map_eq_some_iff.mp worked
    exact .inl (neutral_stays (neutral_readData reads) (readData_references reads).lists.new)
  case h_11 =>
    cases worked
    exact .inl (turned_stays _ (.inl rfl))
  case h_12 =>
    cases worked
    exact .inl (closed_stays _ _ (.inl rfl))
  case h_13 number pc =>
    split at worked
    · cases worked
      exact .inl (closed_stays _ _ (.inl rfl))
    · cases worked
  case h_14 => exact .inl (closeRegistered_stays worked)
  case h_15 => exact .inl (closeRegistered_stays worked)
  case h_16 =>
    cases worked
    refine .inl ⟨.inl rfl, fun inside => absurd rfl inside, fun con member => ?_⟩
    have lists := (destroyAll_lists service.world service.world.mNewConnections.items).trans
      (destroyAll_lists _ service.world.mConnections.items)
    rwa [stopStep, lists.new] at member
  case h_17 => cases worked

theorem connectBegin_stays {addr : List Byte}
    (begins : connectBegin service con addr = some after) : Stays service after := by
  have pc : after.pc = service.pc := by
    simp only [connectBegin, Option.bind_eq_bind, Option.bind_eq_some_iff] at begins
    obtain ⟨object, found, result⟩ := begins
    cases result
    rfl
  obtain ⟨object, found, objects, lists, _⟩ := connectBegin_shape begins
  refine ⟨.inr (by rw [pc]), fun _ => ?_, fun other member => lists.new ▸ member⟩
  funext other
  by_cases same : other = con
  · subst same
    simp [numberOf, assigned, objects, put_here, found, connected, addressed]
  · simp [numberOf, assigned, objects, World.put, same]

/-- A step of a user leaves the turn as it is, or pushes a connection. -/
theorem user_turn (used : userStep service label = some after) :
    Stays service after ∨
    ∃ con ∈ pushed label, eventFd after.pc = eventFd service.pc ∧
      numberOf after.world = numberOf service.world ∧
      ∀ other ∈ after.world.mNewConnections.items,
        other ∈ service.world.mNewConnections.items ∨ other = con := by
  unfold userStep at used
  split at used
  case h_1 con addr =>
    split at used
    · exact .inl (connectBegin_stays used)
    · cases used
  case h_2 con granted =>
    split at used
    · cases used
      refine .inr ⟨con, rfl, rfl, rfl, fun other member => ?_⟩
      simp only [connectPush, setNew_items] at member
      rcases pushed_items service.world.mNewConnections con granted with more | same
      · rw [more, List.mem_append, List.mem_singleton] at member
        exact member
      · rw [same] at member
        exact .inl member
    · cases used
  case h_3 con dst =>
    obtain ⟨next, reads, rfl⟩ := Option.map_eq_some_iff.mp used
    exact .inl (neutral_stays (neutral_userRead reads) (userRead_references reads).lists.new)
  case h_4 con =>
    obtain ⟨next, destroys, rfl⟩ := Option.map_eq_some_iff.mp used
    obtain ⟨_, new, _, keeps, _⟩ := userDestroy_effect destroys
    exact .inl ⟨.inr rfl, fun _ => numberOf_assigned (keeps.assigned none),
      fun _ member => new ▸ member⟩
  case h_5 number bytes =>
    obtain ⟨next, arrives, rfl⟩ := Option.map_eq_some_iff.mp used
    exact .inl (neutral_stays (neutral_arrive arrives) (arrive_references arrives).lists.new)
  case h_6 => cases used

end Turns

section Runs

/-- A pass closes a connection it has just found in its list. -/
theorem closeRegistered_listed {cause : Object → Bool}
    (closes : closeRegistered service con cause = some after) :
    con ∈ service.world.mConnections.items := by
  simp only [closeRegistered, Option.bind_eq_bind, Option.bind_eq_some_iff] at closes
  obtain ⟨object, found, fd, remembers, result⟩ := closes
  split at result
  · rename_i met
    exact met.1
  · cases result

theorem worker_step (own : label.byUser = false) (stepped : step service label = some after) :
    workerStep service label = some after := by
  simp only [step, own, Bool.false_eq_true, if_false] at stepped
  split at stepped
  · cases stepped
  · exact stepped

theorem pass_listed (passes : label = .sendFailed con ∨ label = .disconnect con)
    (stepped : step service label = some after) :
    service.pc = .ready ∧ con ∈ service.world.mConnections.items := by
  rcases passes with rfl | rfl
  · have worked := worker_step rfl stepped
    cases pc : service.pc <;> simp only [workerStep, pc, reduceCtorEq] at worked
    exact ⟨rfl, closeRegistered_listed worked⟩
  · have worked := worker_step rfl stepped
    cases pc : service.pc <;> simp only [workerStep, pc, reduceCtorEq] at worked
    exact ⟨rfl, closeRegistered_listed worked⟩

/-- A number the worker closes is that of the turn, or of a registered connection. -/
theorem closed_source (stepped : step service label = some after)
    (asked : closedNumber service label = some number) :
    eventFd service.pc = some number ∨
    (service.pc = .ready ∧ ∃ con ∈ service.world.mConnections.items,
      numberOf service.world con = some number) := by
  have closes : ∀ con, label = .sendFailed con ∨ label = .disconnect con →
      (service.world.objects con).bind (fun object => object.con.mSockDesc.map fun fd => fd.number) =
        some number → service.pc = .ready ∧ ∃ con ∈ service.world.mConnections.items,
          numberOf service.world con = some number := by
    intro con passes remembers
    obtain ⟨pc, listed⟩ := pass_listed passes stepped
    refine ⟨pc, con, listed, ?_⟩
    rw [← remembers]
    cases found : service.world.objects con <;> simp [numberOf, assigned, found]
  unfold closedNumber at asked
  split at asked
  case h_1 answer =>
    split at asked
    · rename_i there mask pc
      split at asked
      · cases asked
      · exact .inl (by rw [pc]; exact asked)
    · cases asked
  case h_2 =>
    split at asked
    · rename_i there mask pc
      split at asked
      · exact .inl (by rw [pc]; exact asked)
      · cases asked
    · cases asked
  case h_3 =>
    split at asked
    · rename_i there pc
      exact .inl (by rw [pc]; exact asked)
    · cases asked
  case h_4 =>
    split at asked
    · rename_i there pc
      exact .inl (by rw [pc]; exact asked)
    · cases asked
  case h_5 con => exact .inr (closes con (.inl rfl) asked)
  case h_6 con => exact .inr (closes con (.inr rfl) asked)
  case h_7 => cases asked

/-- A number that the worker closes is no number of a waiting connection. -/
theorem closed_clear (tallied : Tallied service) (orderly : Orderly service label)
    (stepped : step service label = some after) (asked : closedNumber service label = some number) :
    ∀ con ∈ service.world.mNewConnections.items, numberOf service.world con ≠ some number := by
  rcases closed_source stepped asked with current | ⟨pc, con, listed, numbered⟩
  · exact tallied.clear number current
  · exact distinct_clear (orderly.distinct (by rw [pc]; rfl)) listed numbered

theorem step_clear (covered : Covered service) (tallied : Tallied service)
    (orderly : Orderly service label) (stepped : step service label = some after) :
    ∀ number ∈ eventFd after.pc, ∀ con ∈ after.world.mNewConnections.items,
      numberOf after.world con ≠ some number := by
  rcases step_sides stepped with ⟨_, used⟩ | ⟨_, worked⟩
  · rcases user_turn used with stays | ⟨con, pushes, turn, numbers, more⟩
    · exact clear_stays stays tallied.clear
    · intro number current other member
      rw [turn] at current
      rw [numbers]
      rcases more other member with before | rfl
      · exact tallied.clear number current other before
      · exact orderly.apart other pushes number current
  · rcases worker_turn covered worked with stays | ⟨number, reports, turn, pc, world⟩
    · exact clear_stays stays tallied.clear
    · have listed : ∃ con ∈ service.world.mConnections.items,
          numberOf service.world con = some number := by
        rcases lookup_cases service.world number with ⟨_, unknown⟩ | ⟨con, _, _, _, here, has⟩
        · exact absurd unknown (orderly.watched number reports)
        · exact ⟨con, List.mem_of_getElem? here, has_number.mp has⟩
      obtain ⟨con, member, numbered⟩ := listed
      intro other current
      rw [turn, Option.mem_some_iff] at current
      subst current
      rw [world]
      exact distinct_clear (orderly.distinct (by rw [pc]; rfl)) member numbered

theorem balanced (tallied : Tallied service) (orderly : Orderly service label)
    (stepped : step service label = some after) (runs : service.pc ≠ .stopped) :
    Balanced service label := by
  refine ⟨runs, orderly.granted, fun number asked => ?_⟩
  rw [clear_forgets (closed_clear tallied orderly stepped asked)]

/-- The users' connections only become fewer, but for one that is created. -/
def Hands (before after : Service) : Prop :=
  before.world.created ≤ after.world.created ∧
    (after.world.held.Sublist before.world.held ∨
      ∃ con, before.world.created ≤ con ∧ con < after.world.created ∧
        after.world.held = con :: before.world.held)

theorem hands_lists (lists : SameLists service.world after.world) : Hands service after := by
  refine ⟨Nat.le_of_eq lists.created.symm, .inl ?_⟩
  rw [lists.held]

theorem created_hands {answers : ObjectAnswers}
    (creates : createAsockStep service number answers = some after) : Hands service after := by
  obtain ⟨fd, world, acquires, rfl | ⟨made, _, rfl⟩⟩ := created_cases creates
  · exact hands_lists ((acquire_references acquires).lists.trans (close_lists world (some fd)))
  · have lists := (acquire_references acquires).lists
    have next : ((world.add made).setHeld (world.created :: world.held)).created =
      world.created + 1 := rfl
    refine ⟨?_, .inr ⟨world.created, Nat.le_of_eq lists.created.symm, ?_, ?_⟩⟩
    · rw [next, lists.created]
      exact Nat.le_succ _
    · rw [next]
      exact Nat.lt_succ_self _
    · rw [setHeld_items, lists.held]

theorem step_hands (covered : Covered service) (stepped : step service label = some after) :
    Hands service after := by
  have same : ∀ {world : World}, SameLists service.world world →
      Hands service { service with world := world } := fun lists => hands_lists lists
  cases step_moved stepped with
  | closed number peer pc =>
      obtain ⟨_, _, held, created, _⟩ := close_counts service.world 0 number
      refine ⟨Nat.le_of_eq created.symm, .inl ?_⟩
      simp only [closeNumber, held]
      exact List.Sublist.refl _
  | turned | began | cleared | connectPushed => exact ⟨Nat.le_refl _, .inl (List.Sublist.refl _)⟩
  | created _ creates => exact created_hands creates
  | gaveUp index con middle object pc here tries =>
      obtain ⟨before, known⟩ := taken_object covered pc here
      exact hands_lists ((tries_cases known tries).2.trans (destroy_lists middle con))
  | tookOver index con middle object pc here tries =>
      obtain ⟨before, known⟩ := taken_object covered pc here
      have lists := (tries_cases known tries).2
      refine ⟨Nat.le_of_eq lists.created.symm, .inl ?_⟩
      simp only [setConnections_held, lists.held]
      exact List.Sublist.refl _
  | established con => exact hands_lists (setState_lists service.world con .established)
  | read number world pc reads => exact same (readData_references reads).lists
  | stopped => exact hands_lists ((destroyAll_lists _ _).trans (destroyAll_lists _ _))
  | connectBegun holds begins =>
      obtain ⟨_, _, _, lists, _⟩ := connectBegin_shape begins
      exact hands_lists lists
  | userRead world reads => exact same (userRead_references reads).lists
  | @userDestroyed con world destroys =>
      obtain ⟨_, rfl⟩ := userDestroy_cases _ destroys
      have lists := destroy_lists (service.world.setHeld (service.world.held.erase con)) con
      refine ⟨Nat.le_of_eq lists.created.symm, .inl ?_⟩
      simp only [lists.held, setHeld_items]
      exact List.erase_sublist
  | arrived world arrives => exact same (arrive_references arrives).lists

theorem stopped_stays (stepped : step service label = some after) (pc : service.pc = .stopped) :
    after.pc = .stopped := by
  have moves : still service.pc = false := by rw [pc]; rfl
  cases step_moved stepped with
  | closed _ _ _ closing =>
      rw [mayClose_still closing] at moves
      cases moves
  | turned _ before | created before =>
      rw [before] at moves
      cases moves
  | began there | gaveUp _ _ _ _ there | tookOver _ _ _ _ there | cleared _ there
  | established _ _ _ there | stopped there =>
      rw [pc] at there
      cases there
  | read _ _ there => exact pc
  | connectBegun _ begins =>
      simp only [connectBegin, Option.bind_eq_bind, Option.bind_eq_some_iff] at begins
      obtain ⟨object, found, result⟩ := begins
      cases result
      exact pc
  | connectPushed | userRead | userDestroyed | arrived => exact pc

theorem hands_once (hands : Hands service after) (once : HeldOnce service.world) :
    HeldOnce after.world := by
  obtain ⟨single, known⟩ := once
  obtain ⟨born, fewer | ⟨new, fresh, below, more⟩⟩ := hands
  · refine ⟨single.sublist fewer, fun con member => ?_⟩
    exact Nat.lt_of_lt_of_le (known con (fewer.subset member)) born
  · refine ⟨?_, fun con member => ?_⟩
    · rw [more]
      refine List.nodup_cons.mpr ⟨fun member => ?_, single⟩
      exact absurd (known new member) (Nat.not_lt_of_le fresh)
    · rw [more, List.mem_cons] at member
      rcases member with rfl | before
      · exact below
      · exact Nat.lt_of_lt_of_le (known con before) born

theorem step_tallied (covered : Covered service) (tallied : Tallied service)
    (orderly : Orderly service label) (stepped : step service label = some after) :
    Tallied after := by
  refine ⟨fun runs con => ?_, hands_once (step_hands covered stepped) tallied.once,
    step_clear covered tallied orderly stepped⟩
  have ran : service.pc ≠ .stopped := fun pc => runs (stopped_stays stepped pc)
  rw [(step_counts covered stepped).2 (balanced tallied orderly stepped ran)]
  exact tallied.level ran con

theorem tallied_owners (tallied : Tallied service) (runs : service.pc ≠ .stopped)
    (isStill : still service.pc = true) (notConnecting : con ∉ service.connecting) :
    counter service.world con = owners service con := by
  have level := tallied.level runs con
  obtain ⟨listed, new⟩ := still_lists isStill
  have once : service.world.held.count con = if con ∈ service.world.held then 1 else 0 := by
    split
    · rename_i member
      exact List.count_eq_one_of_mem tallied.once.1 member
    · rename_i absent
      exact List.count_eq_zero_of_not_mem absent
  simp only [surplus, holders, listed, new, List.count_eq_zero_of_not_mem notConnecting, once] at level
  simp only [owners]
  omega

theorem tallied_exact (covered : Covered service) (tallied : Tallied service) :
    ExactCounts service := by
  have running : still service.pc = true → service.pc ≠ .stopped := by
    intro isStill pc
    rw [pc] at isStill
    cases isStill
  constructor
  case holders =>
    intro runs con
    have level := tallied.level runs con
    rw [surplus] at level
    omega
  case owners =>
    intro isStill con notConnecting
    exact tallied_owners tallied (running isStill) isStill notConnecting
  case positive =>
    intro con
    have enough := covered.enough con
    omega
  case released =>
    intro isStill con notConnecting object found
    have level := tallied_owners tallied (running isStill) isStill notConnecting
    rw [counter_some found] at level
    rw [(covered.freed con object found).freed, level]
    omega

theorem configured_tallied (mServiceId : Int) : Tallied (.configured mServiceId) := by
  refine ⟨fun _ _ => rfl, ⟨List.nodup_nil, ?_⟩, ?_⟩
  · intro con member
    cases member
  · intro number current
    cases current

theorem counters_exact (mServiceId : Int) (service : Service)
    (run : GuardedRun step Orderly (.configured mServiceId) service) : ExactCounts service := by
  obtain ⟨covered, tallied⟩ := run.invariant_with Covered Tallied
    (fun _ _ _ covered _ stepped => step_covered covered stepped)
    (fun _ _ _ covered tallied orderly stepped => step_tallied covered tallied orderly stepped)
    (configured_covered mServiceId) (configured_tallied mServiceId)
  exact tallied_exact covered tallied

-- `getsockopt` fails for the third connection: the turn closes its descriptor and goes on. The user
-- connects the second one, which remembers the same number, and the turn closes the number again:
-- the second connection is taken out of `m_new_connections` and its reference stays.
theorem second_close_forgets : ∃ service, GuardedRun step Assumed (.configured 1) service ∧
    counter service.world 1 = 2 ∧ owners service 1 = 1 ∧ ¬ ExactCounts service := by
  obtain ⟨service, run, tested⟩ := replayed step Assumed (.configured 1)
    ([.createAsock 5 granted, .start, .userConnect 0 [1], .userConnectPush 0 true, .beginPass,
      .takeOver (.opened 7 (.started true true)) true, .endPass, .sendFailed 0,
      .createAsock 7 granted, .userDestroy 0, .createAsock 6 granted, .userConnect 2 [2],
      .userConnectPush 2 true, .beginPass, .takeOver (.opened 7 (.started false true)) true,
      .endPass, .event 7 ⟨true, true, false, true, false⟩, .sockError .unreadable,
      .userConnect 1 [3], .userConnectPush 1 true, .handle])
    (fun service => counter service.world 1 = 2 ∧ owners service 1 = 1 ∧
      still service.pc = true ∧ 1 ∉ service.connecting) (by decide +kernel)
  obtain ⟨counted, owned, between, outside⟩ := of_decide_eq_true tested
  refine ⟨service, run, counted, owned, fun exacts => ?_⟩
  have same := exacts.owners between 1 outside
  rw [counted, owned] at same
  exact absurd same (by decide)

theorem disconnected_released : ∃ service, GuardedRun step Orderly (.configured 1) service ∧
    counter service.world 0 = 0 ∧ counter service.world 1 = 2 ∧ ExactCounts service := by
  obtain ⟨service, run, tested⟩ := replayed step Orderly (.configured 1)
    ([.createAsock 5 granted, .createAsock 6 granted, .start, .userConnect 0 [1],
      .userConnectPush 0 true, .beginPass, .takeOver (.opened 7 (.started true true)) true, .endPass,
      .userConnect 1 [2], .userConnectPush 1 true, .userDestroy 0, .disconnect 0])
    (fun service => counter service.world 0 = 0 ∧ counter service.world 1 = 2) (by decide +kernel)
  obtain ⟨gone, waits⟩ := of_decide_eq_true tested
  exact ⟨service, run, gone, waits, counters_exact 1 service run⟩

end Runs

end Libasock.ServiceCounts
