import Libasock.KeyedAttempts
import Libasock.ServiceDescriptors

/-!
`asock_service_connect` as one call, and the first loop of
`asock_service_update_state` as one pass over `m_new_connections`. Both keep to the
steps of `ServiceWorker`. The call does not look at what its push returns, nor
does the loop at what its own push returns, and the same connection may wait in
the list more than once.
-/

namespace Libasock.ConnectRequests
open ByteBlocks GuardedRuns NumberReuse ReturnCodes ConnectionObjects WorkerWorld ReferenceCounts SocketContents
  ServiceWorker ServiceStates ServiceDescriptors KeyedAttempts

section Calls

/-- The arguments of a call and what its allocations answer; `none` is `NULL`. -/
structure Request where
  socket : Option ConRef
  addr : Option (List Byte)
  memory : Bool
  granted : Bool

/-- `asock_service_connect`; `none` when `socket` points to no connection. -/
def serviceConnect (service : Service) (request : Request) : Option (AsockReturnCode × Service) :=
  match request.addr, request.socket with
  | none, _ => some (asockErrInval, service)
  | some _, none => some (asockErrInval, service)
  | some addr, some con =>
      if request.memory = false then some (asockErrNomem, service)
      else (connectBegin service con addr).map fun begun =>
        (asockSuccess, connectPush begun con request.granted)

def Request.pushes (request : Request) : Bool :=
  request.addr.isSome && request.socket.isSome && request.memory

/-- A success has put the connection into the list, an error has changed nothing. -/
def Kept (before : Service) (request : Request) (code : AsockReturnCode) (after : Service) : Prop :=
  if code = asockSuccess then
    after.world.mNewConnections.lost = false ∧
      ∃ con, request.socket = some con ∧ con ∈ after.world.mNewConnections.items
  else after = before

theorem early_return (service : Service) {request : Request} (early : request.pushes = false) :
    ∃ code, serviceConnect service request = some (code, service) ∧ code ≠ asockSuccess := by
  have invalid : asockErrInval ≠ asockSuccess := by decide
  have noMemory : asockErrNomem ≠ asockSuccess := by decide
  obtain ⟨socket, addr, memory, granted⟩ := request
  cases addr with
  | none => exact ⟨_, rfl, invalid⟩
  | some addr =>
      cases socket with
      | none => exact ⟨_, rfl, invalid⟩
      | some con =>
          have refused : memory = false := by simpa [Request.pushes] using early
          exact ⟨asockErrNomem, by simp [serviceConnect, refused], noMemory⟩

theorem call_kept {service after : Service} {request : Request} {code : AsockReturnCode}
    (calls : serviceConnect service request = some (code, after)) :
    Kept service request code after ↔ (request.pushes = true →
      service.world.mNewConnections.lost = false ∧
        ¬ PushRefused service.world.mNewConnections request.granted) := by
  cases pushes : request.pushes with
  | false =>
      obtain ⟨early, returns, failed⟩ := early_return service pushes
      rw [returns] at calls
      cases calls
      simp [Kept, failed]
  | true =>
      obtain ⟨socket, addr, memory, granted⟩ := request
      simp only [Request.pushes, Bool.and_eq_true, Option.isSome_iff_exists] at pushes
      obtain ⟨⟨⟨addr, rfl⟩, con, rfl⟩, rfl⟩ := pushes
      obtain ⟨begun, begins, same⟩ := Option.map_eq_some_iff.mp calls
      cases same
      obtain ⟨_, _, _, lists, _⟩ := connectBegin_shape begins
      have waiting := lists.new
      simp only [Kept, if_true, connectPush, setNew_items, waiting, push_usable, forall_const,
        Option.some.injEq, exists_eq_left', and_iff_left_iff_imp]
      rintro ⟨_, room⟩
      rw [pushed_member con room]
      exact List.mem_append_right _ (List.mem_singleton_self con)

end Calls

section Passes

structure Turn where
  outcome : ConnectOutcome
  granted : Bool

/-- Whether `asock_service_try_connect_to_peer` leaves the connection `Failed`. -/
def fails : ConnectOutcome → Bool
  | .socketFailed => true
  | .opened _ .nonBlockingFailed => true
  | .opened _ .connectFailed => true
  | .opened _ (.started _ watched) => !watched

/-- The loop from `index` on and the clear. The process ends at an item of a list without data. -/
def takeOverFrom (service : Service) (index : Nat) : List Turn → Option Service
  | [] =>
      if index = service.world.mNewConnections.items.length then
        some { service with
          world := service.world.setNew service.world.mNewConnections.clear
          pc := .ready }
      else none
  | turn :: rest =>
      if service.world.mNewConnections.lost then none
      else (takeOverStep service index turn.outcome turn.granted).bind fun next =>
        takeOverFrom next (index + 1) rest

def takeOverAll (service : Service) (turns : List Turn) : Option Service :=
  takeOverFrom service 0 turns

def visits (service : Service) (turns : List Turn) : List (ConRef × Turn) :=
  service.world.mNewConnections.items.zip turns

def attempts (visits : List (ConRef × Turn)) : List (ConRef × Bool) :=
  visits.map fun visit => (visit.1, fails visit.2.outcome)

/-- Every connection that got started finds room in a usable list. -/
def GrowthsGranted : Connections → List (ConRef × Turn) → Prop
  | _, [] => True
  | list, (con, turn) :: rest =>
      if fails turn.outcome then GrowthsGranted list rest
      else list.lost = false ∧ ¬ PushRefused list turn.granted ∧
        GrowthsGranted (list.push con turn.granted).2 rest

/-- Where a connection is after the pass: registered once and not failed, or failed with
every reference of the service dropped. -/
def Landed (before after : World) (con : ConRef) : Prop :=
  (after.mConnections.lost = false ∧ after.mConnections.items.count con = 1 ∧
    (view stateOf after con = some .inProgress ∨ view stateOf after con = some .established)) ∨
  (con ∉ after.mConnections.items ∧ view stateOf after con = some .failed ∧
    counter after con = counter before con - before.mNewConnections.items.count con)

structure Turned (before after : World) (con : ConRef) (turn : Turn) : Prop where
  waiting : after.mNewConnections = before.mNewConnections
  counters : ∀ other, counter after other =
    counter before other - if other = con ∧ fails turn.outcome = true then 1 else 0
  others : ∀ other, other ≠ con → view stateOf after other = view stateOf before other
  failed : fails turn.outcome = true → view stateOf after con = some .failed ∧
    after.mConnections = before.mConnections
  begun : fails turn.outcome = false →
    (view stateOf after con = some .inProgress ∨ view stateOf after con = some .established) ∧
    after.mConnections = (before.mConnections.push con turn.granted).2

section Attempts

variable {world after : World} {con : ConRef} {object : Object} {outcome : ConnectOutcome}

theorem giveUp_failed {old : AsockConState} (fd : Descriptor)
    (here : view stateOf world con = some old) :
    view stateOf (giveUp world con fd) con = some .failed := by
  rw [giveUp, setSockDesc_states]
  apply setState_here
  rw [view_objects (close_objects (some fd))]
  exact here

/-- The state an attempt leaves is decided by what the kernel answers. -/
theorem tries_outcome (found : world.objects con = some object)
    (tries : tryConnectToPeer world con outcome = some after) :
    if fails outcome then view stateOf after con = some .failed
    else view stateOf after con = some .inProgress ∨ view stateOf after con = some .established := by
  have here : view stateOf world con = some object.con.mState := by simp [view, found, stateOf]
  have begun := setState_here .inProgress here
  unfold tryConnectToPeer at tries
  cases outcome with
  | socketFailed =>
      cases tries
      rw [fails, if_pos rfl, setSockDesc_states]
      exact setState_here .failed begun
  | opened number attempt =>
      simp only [Option.bind_eq_bind, Option.bind_eq_some_iff] at tries
      obtain ⟨⟨fd, acquired⟩, acquires, result⟩ := tries
      have given : view stateOf (setSockDesc acquired con (some fd)) con = some .inProgress := by
        rw [setSockDesc_states, view_objects (acquire_effect acquires).1]
        exact begun
      have reached := setState_here .established given
      cases attempt with
      | nonBlockingFailed =>
          cases result
          exact giveUp_failed fd given
      | connectFailed =>
          cases result
          exact giveUp_failed fd given
      | started established watched =>
          cases established <;> cases watched <;> cases result
          · exact giveUp_failed fd given
          · exact .inl given
          · exact giveUp_failed fd reached
          · exact .inr reached

theorem tries_counters (found : world.objects con = some object)
    (tries : tryConnectToPeer world con outcome = some after) (other : ConRef) :
    counter after other = counter world other := by
  have kept : ∀ state fd, after.objects = (world.put con (attempted object state fd)).objects →
      counter after other = counter world other := by
    intro state fd objects
    rw [counter_congr _ other objects, counter_put]
    split
    · rename_i same
      rw [same, counter_some found]
      rfl
    · rfl
  cases (tries_cases found tries).1 with
  | refused objects => exact kept _ _ objects
  | abandoned _ objects => exact kept _ _ objects
  | started _ _ _ objects => exact kept _ _ objects

theorem tries_absent (absent : world.objects con = none)
    (tries : tryConnectToPeer world con outcome = some after) : after.objects con = none := by
  have stateless : ∀ (other : World) state, other.objects con = none →
      other.setState con state = other := by
    intro other state unset
    rw [World.setState, unset]
  have fieldless : ∀ (other : World) fd, other.objects con = none →
      setSockDesc other con fd = other := by
    intro other fd unset
    rw [setSockDesc, unset]
  unfold tryConnectToPeer at tries
  rw [stateless world _ absent] at tries
  cases outcome with
  | socketFailed =>
      cases tries
      rw [stateless world _ absent, fieldless world _ absent]
      exact absent
  | opened number attempt =>
      simp only [Option.bind_eq_bind, Option.bind_eq_some_iff] at tries
      obtain ⟨⟨fd, acquired⟩, acquires, result⟩ := tries
      have gone : acquired.objects con = none := by
        rw [(acquire_effect acquires).1]
        exact absent
      have closed : (acquired.close (some fd)).objects con = none := by
        rw [close_objects]
        exact gone
      have givenUp : giveUp acquired con fd = acquired.close (some fd) := by
        rw [giveUp, stateless _ _ closed, fieldless _ _ closed]
      simp only [fieldless acquired _ gone, stateless acquired _ gone, givenUp, ite_self] at result
      cases attempt with
      | nonBlockingFailed =>
          cases result
          exact closed
      | connectFailed =>
          cases result
          exact closed
      | started established watched =>
          cases watched <;> cases result
          · exact closed
          · exact gone

end Attempts

theorem takeOver_turned {service next : Service} {index : Nat} {con : ConRef} {turn : Turn}
    (here : service.world.mNewConnections.items[index]? = some con)
    (takes : takeOverStep service index turn.outcome turn.granted = some next) :
    Turned service.world next.world con turn := by
  simp only [takeOverStep, here, Option.bind_eq_bind, Option.bind_some,
    Option.bind_eq_some_iff] at takes
  obtain ⟨world, tries, object, tried, result⟩ := takes
  cases found : service.world.objects con with
  | none =>
      rw [tries_absent found tries] at tried
      cases tried
  | some before =>
      have lists := (tries_cases found tries).2
      have state := tries_outcome found tries
      have counters := tries_counters found tries
      have others : ∀ other, other ≠ con →
          view stateOf world other = view stateOf service.world other :=
        fun other different => tries_states found tries different
      have now : view stateOf world con = some object.con.mState := by simp [view, tried, stateOf]
      cases failed : fails turn.outcome with
      | true =>
          rw [failed, if_pos rfl, now, Option.some.injEq] at state
          rw [if_pos state] at result
          cases result
          have dropped := destroy_lists world con
          constructor
          case waiting => exact dropped.new.trans lists.new
          case counters =>
            intro other
            rw [counter_destroy tried, counters]
            simp [failed]
          case others =>
            intro other different
            rw [view_destroy stateOf_uncounted]
            exact others other different
          case failed =>
            intro _
            rw [view_destroy stateOf_uncounted, now, state]
            exact ⟨rfl, dropped.connections.trans lists.connections⟩
          case begun =>
            intro impossible
            rw [failed] at impossible
            cases impossible
      | false =>
          rw [failed, if_neg Bool.false_ne_true, now, Option.some.injEq, Option.some.injEq] at state
          have unfailed : object.con.mState ≠ .failed := by
            rcases state with state | state <;> rw [state] <;> decide
          rw [if_neg unfailed] at result
          cases result
          constructor
          case waiting => exact lists.new
          case counters =>
            intro other
            rw [counter_setConnections, counters]
            simp [failed]
          case others => exact others
          case failed =>
            intro impossible
            rw [failed] at impossible
            cases impossible
          case begun =>
            intro _
            rw [← lists.connections]
            refine ⟨?_, rfl⟩
            rcases state with state | state
            · exact .inl (now.trans (congrArg some state))
            · exact .inr (now.trans (congrArg some state))

structure Passed (before after : World) (visits : List (ConRef × Turn)) : Prop where
  counters : ∀ con, counter after con = counter before con - (attempts visits).count (con, true)
  untouched : ∀ con, lastFails con (attempts visits) = none →
    view stateOf after con = view stateOf before con
  failed : ∀ con, lastFails con (attempts visits) = some true →
    view stateOf after con = some .failed
  begun : ∀ con, lastFails con (attempts visits) = some false →
    view stateOf after con = some .inProgress ∨ view stateOf after con = some .established
  lost : before.mConnections.lost = true → after.mConnections.lost = true
  refused : ¬ GrowthsGranted before.mConnections visits → after.mConnections.lost = true
  granted : GrowthsGranted before.mConnections visits →
    after.mConnections.lost = before.mConnections.lost ∧
    ∀ con, after.mConnections.items.count con =
      before.mConnections.items.count con + (attempts visits).count (con, false)

@[simp] theorem attempts_cons (con : ConRef) (turn : Turn) (rest : List (ConRef × Turn)) :
    attempts ((con, turn) :: rest) = (con, fails turn.outcome) :: attempts rest := rfl

theorem passed_none {before after : World} (objects : after.objects = before.objects)
    (connections : after.mConnections = before.mConnections) : Passed before after [] := by
  constructor
  case counters =>
    intro con
    rw [counter_congr before con objects]
    simp [attempts]
  case untouched => exact fun con _ => congrFun (view_objects objects) con
  case failed => exact fun con impossible => by cases impossible
  case begun => exact fun con impossible => by cases impossible
  case lost => exact fun lost => by rw [connections, lost]
  case refused => exact fun impossible => absurd trivial impossible
  case granted => exact fun _ => by simp [connections, attempts]

theorem last_verdict {other con : ConRef} {verdict : Bool} {first : Bool}
    {rest : List (ConRef × Bool)} (last : lastFails other ((con, first) :: rest) = some verdict) :
    lastFails other rest = some verdict ∨
      (lastFails other rest = none ∧ con = other ∧ first = verdict) := by
  rw [lastFails, Option.or_eq_some_iff] at last
  rcases last with later | ⟨untried, here⟩
  · exact .inl later
  · split at here
    · rename_i same
      exact .inr ⟨untried, same, Option.some.inj here⟩
    · cases here

theorem passed_cons {before middle after : World} {con : ConRef} {turn : Turn}
    {rest : List (ConRef × Turn)} (turned : Turned before middle con turn)
    (passed : Passed middle after rest) : Passed before after ((con, turn) :: rest) := by
  have keepsLost : before.mConnections.lost = true → middle.mConnections.lost = true := by
    intro lost
    cases failed : fails turn.outcome with
    | true => rw [(turned.failed failed).2, lost]
    | false =>
        rw [(turned.begun failed).2]
        by_contra usable
        rw [Bool.not_eq_true, push_usable con, lost] at usable
        cases usable.1
  constructor
  case counters =>
    intro other
    rw [passed.counters, turned.counters, attempts_cons, List.count_cons]
    by_cases same : con = other
    · subst same
      cases failed : fails turn.outcome <;> simp
      omega
    · simp [same, Ne.symm same]
  case untouched =>
    intro other last
    rw [attempts_cons, lastFails, Option.or_eq_none_iff] at last
    have different : other ≠ con := by
      rintro rfl
      simp at last
    rw [passed.untouched other last.1, turned.others other different]
  case failed =>
    intro other last
    rcases last_verdict last with later | ⟨untried, rfl, failed⟩
    · exact passed.failed other later
    · rw [passed.untouched con untried]
      exact (turned.failed failed).1
  case begun =>
    intro other last
    rcases last_verdict last with later | ⟨untried, rfl, begun⟩
    · exact passed.begun other later
    · rw [passed.untouched con untried]
      exact (turned.begun begun).1
  case lost => exact fun lost => passed.lost (keepsLost lost)
  case refused =>
    intro refused
    rw [GrowthsGranted] at refused
    cases failed : fails turn.outcome with
    | true =>
        rw [failed, if_pos rfl, ← (turned.failed failed).2] at refused
        exact passed.refused refused
    | false =>
        rw [failed, if_neg Bool.false_ne_true, ← and_assoc, ← push_usable con,
          ← (turned.begun failed).2] at refused
        by_cases usable : middle.mConnections.lost = false
        · exact passed.refused fun granted => refused ⟨usable, granted⟩
        · exact passed.lost (Bool.not_eq_false _ ▸ usable)
  case granted =>
    intro granted
    rw [GrowthsGranted] at granted
    cases failed : fails turn.outcome with
    | true =>
        rw [failed, if_pos rfl, ← (turned.failed failed).2] at granted
        obtain ⟨usable, counts⟩ := passed.granted granted
        rw [(turned.failed failed).2] at usable counts
        refine ⟨usable, fun other => ?_⟩
        rw [counts other, attempts_cons, failed, List.count_cons_of_ne (by simp)]
    | false =>
        rw [failed, if_neg Bool.false_ne_true] at granted
        obtain ⟨unlost, room, later⟩ := granted
        rw [← (turned.begun failed).2] at later
        obtain ⟨usable, counts⟩ := passed.granted later
        rw [(turned.begun failed).2] at usable counts
        refine ⟨usable.trans (push_granted con room).2, fun other => ?_⟩
        rw [counts other, pushed_member con room, attempts_cons, failed, List.count_append]
        by_cases same : con = other
        · subst same
          simp only [List.count_cons_self, List.count_nil]
          omega
        · simp [same]

theorem passed_from {service after : Service} {index : Nat} {turns : List Turn}
    (takes : takeOverFrom service index turns = some after) :
    Passed service.world after.world
      ((service.world.mNewConnections.items.drop index).zip turns) ∧
      service.world.mNewConnections.items.length = index + turns.length := by
  induction turns generalizing service index with
  | nil =>
      rw [takeOverFrom] at takes
      split at takes
      · rename_i finished
        cases takes
        rw [List.zip_nil_right]
        exact ⟨passed_none rfl rfl, finished.symm⟩
      · cases takes
  | cons turn rest ih =>
      rw [takeOverFrom] at takes
      split at takes
      · cases takes
      · obtain ⟨next, stepped, later⟩ := Option.bind_eq_some_iff.mp takes
        obtain ⟨con, here, _⟩ := Option.bind_eq_some_iff.mp stepped
        have turned := takeOver_turned here stepped
        obtain ⟨passed, length⟩ := ih later
        obtain ⟨inside, same⟩ := List.getElem?_eq_some_iff.mp here
        rw [turned.waiting] at passed length
        rw [List.drop_eq_getElem_cons inside, same, List.zip_cons_cons]
        refine ⟨passed_cons turned passed, ?_⟩
        rw [length, List.length_cons]
        omega

theorem growths_unasked {list : Connections} {visits : List (ConRef × Turn)}
    (unasked : ∀ visit ∈ visits, fails visit.2.outcome = true) : GrowthsGranted list visits := by
  induction visits with
  | nil => trivial
  | cons visit rest ih =>
      obtain ⟨con, turn⟩ := visit
      have failed : fails turn.outcome = true := unasked (con, turn) (by simp)
      rw [GrowthsGranted, failed, if_pos rfl]
      exact ih fun other member => unasked other (List.mem_cons_of_mem _ member)

theorem growths_usable {list : Connections} {visits : List (ConRef × Turn)} {con : ConRef}
    (granted : GrowthsGranted list visits) (succeeded : (con, false) ∈ attempts visits) :
    list.lost = false := by
  induction visits with
  | nil => cases succeeded
  | cons visit rest ih =>
      obtain ⟨other, turn⟩ := visit
      rw [GrowthsGranted] at granted
      cases failed : fails turn.outcome with
      | true =>
          rw [failed, if_pos rfl] at granted
          rw [attempts_cons, failed] at succeeded
          exact ih granted (by simpa using succeeded)
      | false =>
          rw [failed, if_neg Bool.false_ne_true] at granted
          exact granted.1

theorem waiting_total {before : World} {visits : List (ConRef × Turn)}
    (waiting : (attempts visits).map Prod.fst = before.mNewConnections.items) (con : ConRef) :
    before.mNewConnections.items.count con =
      (attempts visits).count (con, false) + (attempts visits).count (con, true) := by
  rw [← waiting, verdicts_count]

/-- With every growth granted a connection lands when it is registered by its last attempt only. -/
theorem landed_settled {before after : World} {visits : List (ConRef × Turn)} {con : ConRef}
    (passed : Passed before after visits)
    (waiting : (attempts visits).map Prod.fst = before.mNewConnections.items)
    (granted : GrowthsGranted before.mConnections visits)
    (member : con ∈ before.mNewConnections.items) :
    Landed before after con ↔
      Settled con (attempts visits) ∧ con ∉ before.mConnections.items := by
  have tried : con ∈ (attempts visits).map Prod.fst := by
    rw [waiting]
    exact member
  obtain ⟨sameLost, counts⟩ := passed.granted granted
  have now := counts con
  have total := waiting_total waiting con
  constructor
  · rintro (⟨_, once, state⟩ | ⟨absent, _, _⟩)
    · have last : lastFails con (attempts visits) = some false := by
        cases last : lastFails con (attempts visits) with
        | none => exact absurd tried (lastFails_none.mp last)
        | some verdict =>
            cases verdict with
            | false => rfl
            | true =>
                rw [passed.failed con last] at state
                rcases state with state | state <;> cases state
      have succeeded := last_counted last
      refine ⟨.inl ⟨last, by omega⟩, ?_⟩
      rw [← List.count_eq_zero]
      omega
    · rw [← List.count_eq_zero] at absent
      have never : (attempts visits).count (con, false) = 0 := by omega
      refine ⟨.inr ⟨unsuccessful_last tried never, never⟩, ?_⟩
      rw [← List.count_eq_zero]
      omega
  · rintro ⟨settled, apart⟩
    rw [← List.count_eq_zero] at apart
    rcases settled with ⟨last, once⟩ | ⟨last, never⟩
    · have succeeded : (con, false) ∈ attempts visits := List.count_pos_iff.mp (by omega)
      refine .inl ⟨sameLost.trans (growths_usable granted succeeded), by omega, passed.begun con last⟩
    · refine .inr ⟨?_, passed.failed con last, ?_⟩
      · rw [← List.count_eq_zero]
        omega
      · rw [passed.counters, total, never, Nat.zero_add]

/-- A list that is lost in the pass misses a connection that got started. -/
theorem landed_granted {before after : World} {visits : List (ConRef × Turn)}
    (passed : Passed before after visits)
    (waiting : (attempts visits).map Prod.fst = before.mNewConnections.items)
    (landed : ∀ con ∈ before.mNewConnections.items, Landed before after con) :
    GrowthsGranted before.mConnections visits := by
  by_contra refused
  have lost := passed.refused refused
  refine refused (growths_unasked fun visit member => ?_)
  by_contra began
  rw [Bool.not_eq_true] at began
  have succeeded : (visit.1, false) ∈ attempts visits :=
    List.mem_map.mpr ⟨visit, member, by rw [began]⟩
  have there : visit.1 ∈ before.mNewConnections.items := by
    rw [← waiting]
    exact List.mem_map.mpr ⟨_, succeeded, rfl⟩
  have counted := List.count_pos_iff.mpr succeeded
  rcases landed visit.1 there with ⟨usable, _⟩ | ⟨_, _, dropped⟩
  · rw [lost] at usable
    cases usable
  · rw [passed.counters, waiting_total waiting] at dropped
    omega

/-- All connections land exactly when nothing they need is refused and none is registered twice. -/
theorem all_landed {before after : World} {visits : List (ConRef × Turn)}
    (passed : Passed before after visits)
    (waiting : (attempts visits).map Prod.fst = before.mNewConnections.items) :
    (∀ con ∈ before.mNewConnections.items, Landed before after con) ↔
      GrowthsGranted before.mConnections visits ∧ OnlyLastSucceeds (attempts visits) ∧
        ∀ con ∈ before.mNewConnections.items, con ∉ before.mConnections.items := by
  rw [onlyLast_settled, waiting]
  constructor
  · intro landed
    have granted := landed_granted passed waiting landed
    have each : ∀ con ∈ before.mNewConnections.items, _ := fun con member =>
      (landed_settled passed waiting granted member).mp (landed con member)
    exact ⟨granted, fun con member => (each con member).1, fun con member => (each con member).2⟩
  · rintro ⟨granted, settled, apart⟩ con member
    exact (landed_settled passed waiting granted member).mpr ⟨settled con member, apart con member⟩

end Passes

section Steps

variable {service next after : Service} {index : Nat}

theorem takeOver_pc {turn : Turn}
    (takes : takeOverStep service index turn.outcome turn.granted = some next) :
    next.pc = .takingOver (index + 1) := by
  simp only [takeOverStep, Option.bind_eq_bind, Option.bind_eq_some_iff] at takes
  obtain ⟨_, _, _, _, _, _, result⟩ := takes
  split at result <;> cases result <;> rfl

/-- The call is two steps of a user whose service is not in its loop. -/
theorem call_steps {con : ConRef} {addr : List Byte} {granted : Bool}
    (holds : con ∈ service.world.held) (unlocked : locked service.pc = false)
    (usable : service.world.mNewConnections.lost = false) {code : AsockReturnCode}
    (calls : serviceConnect service ⟨some con, some addr, true, granted⟩ = some (code, after)) :
    Run step service after := by
  obtain ⟨begun, begins, same⟩ := Option.map_eq_some_iff.mp calls
  cases same
  obtain ⟨_, _, _, lists, _⟩ := connectBegin_shape begins
  have begunUsable : begun.world.mNewConnections.lost = false := by
    rw [lists.new]
    exact usable
  have moves : begun.pc = service.pc ∧ con ∈ begun.connecting := by
    obtain ⟨_, _, result⟩ := Option.bind_eq_some_iff.mp begins
    cases result
    exact ⟨rfl, List.mem_cons_self⟩
  have first : step service (.userConnect con addr) = some begun := by
    simp [step, Label.byUser, userStep, holds, begins]
  have second : step begun (.userConnectPush con granted) =
      some (connectPush begun con granted) := by
    simp [step, Label.byUser, userStep, moves, unlocked, begunUsable]
  exact .next _ (.next _ .refl trivial first) trivial second

/-- The loop is a run of the worker's own steps as long as its lists are usable. -/
theorem pass_steps {turns : List Turn} (pc : service.pc = .takingOver index)
    (usable : service.broken = false)
    (granted : GrowthsGranted service.world.mConnections
      ((service.world.mNewConnections.items.drop index).zip turns))
    (takes : takeOverFrom service index turns = some after) :
    Run step service after := by
  induction turns generalizing service index with
  | nil =>
      refine .next .endPass .refl trivial ?_
      simpa [step, Label.byUser, usable, workerStep, pc, takeOverFrom] using takes
  | cons turn rest ih =>
      rw [takeOverFrom] at takes
      split at takes
      · cases takes
      · obtain ⟨next, stepped, later⟩ := Option.bind_eq_some_iff.mp takes
        obtain ⟨con, here, _⟩ := Option.bind_eq_some_iff.mp stepped
        have turned := takeOver_turned here stepped
        obtain ⟨inside, same⟩ := List.getElem?_eq_some_iff.mp here
        rw [List.drop_eq_getElem_cons inside, same, List.zip_cons_cons, GrowthsGranted] at granted
        have first : step service (.takeOver turn.outcome turn.granted) = some next := by
          simpa [step, Label.byUser, usable, workerStep, pc] using stepped
        rw [Service.broken, Bool.or_eq_false_iff] at usable
        have goes : next.broken = false ∧ GrowthsGranted next.world.mConnections
            ((next.world.mNewConnections.items.drop (index + 1)).zip rest) := by
          rw [Service.broken, turned.waiting, usable.2, Bool.or_false]
          cases failed : fails turn.outcome with
          | true =>
              rw [failed, if_pos rfl] at granted
              rw [(turned.failed failed).2]
              exact ⟨usable.1, granted⟩
          | false =>
              rw [failed, if_neg Bool.false_ne_true] at granted
              rw [(turned.begun failed).2]
              exact ⟨(push_usable con).mpr ⟨granted.1, granted.2.1⟩, granted.2.2⟩
        exact GuardedRun.trans (.next _ .refl trivial first)
          (ih (takeOver_pc stepped) goes.1 goes.2 later)

end Steps

section Results

def connectAll (service : Service) : List Request → Option Service
  | [] => some service
  | request :: rest => (serviceConnect service request).bind fun result => connectAll result.2 rest

def EachKept (service : Service) : List Request → Prop
  | [] => True
  | request :: rest => ∀ code after, serviceConnect service request = some (code, after) →
      Kept service request code after ∧ EachKept after rest

/-- No call that comes to its push finds the list lost or its growth refused. -/
def EachPushed (service : Service) : List Request → Prop
  | [] => True
  | request :: rest =>
      (request.pushes = true → service.world.mNewConnections.lost = false ∧
        ¬ PushRefused service.world.mNewConnections request.granted) ∧
      ∀ code after, serviceConnect service request = some (code, after) → EachPushed after rest

theorem each_kept {service before : Service} {requests : List Request}
    (asks : connectAll service requests = some before) :
    EachKept service requests ↔ EachPushed service requests := by
  induction requests generalizing service with
  | nil => exact Iff.rfl
  | cons request rest ih =>
      obtain ⟨⟨code, after⟩, calls, later⟩ := Option.bind_eq_some_iff.mp asks
      simp [EachKept, EachPushed, calls, call_kept calls, ih later]

def idleService (count : Nat) : Service :=
  { Service.configured 1 with
    world := { (Service.configured 1).world with
      objects := fun con =>
        if con < count then some ⟨newObject ⟨con, con⟩ con, false, []⟩ else none
      created := count
      held := List.range count }
    pc := .ready }

def requestFor (con : ConRef) : Request := ⟨some con, some [2, 0], true, false⟩

end Results

end Libasock.ConnectRequests
