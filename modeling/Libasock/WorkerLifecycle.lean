import Libasock.SerialDirectives

/-!
One client thread, the public calls it makes on a server or a service, and the
worker behind them, from the object's creation to its release. The status is
read before a call enters `asock_send_directive`; a stop joins the worker after
the reply. The worker ends by a failed start or a stop.
-/

namespace Libasock.WorkerLifecycle
open GuardedRuns ReturnCodes DirectiveSlot SerialDirectives

inductive PublicCall where
  | bind (args : Arguments)
  | listen
  | start
  | createAsock (args : Arguments)
  | stop
  | destroy
  deriving DecidableEq

def offered : Role → PublicCall → Bool
  | .server, .bind _ | .server, .listen | .server, .stop | .server, .destroy => true
  | .service, .start | .service, .createAsock _ | .service, .stop | .service, .destroy => true
  | _, _ => false

/-- What a call that sends no directive gives back: a code, `NULL` or nothing. -/
inductive Refusal where
  | code (code : AsockReturnCode)
  | null
  | nothing
  deriving DecidableEq

def noArguments : Arguments := ⟨0, 0, 0, 0⟩

def PublicCall.request : PublicCall → Request
  | .bind args => ⟨.directBind, args⟩
  | .listen | .start => ⟨.directStart, noArguments⟩
  | .createAsock args => ⟨.directCreateAsock, args⟩
  | .stop | .destroy => ⟨.directStop, noArguments⟩

/-- The tests of `m_server_status` and `m_service_status` in front of a directive. -/
def admitted (status : ServiceStatus) (call : PublicCall) : Except Refusal Request :=
  match call with
  | .bind _ | .listen | .start =>
      if status = .running then .error (.code asockErrBadstate) else .ok call.request
  | .createAsock _ =>
      if status = .aborted ∨ status = .init then .error .null else .ok call.request
  | .stop | .destroy => if status = .running then .ok call.request else .error .nothing

/-- A call that stops a running worker. -/
def PublicCall.stops : PublicCall → Bool
  | .stop | .destroy => true
  | _ => false

inductive ClientPc where
  | outside
  | entering (call : PublicCall)
  | waiting (call : PublicCall)
  | joining (call : PublicCall)
  | freeing
  | gone
  deriving DecidableEq

structure Lifecycle where
  slot : Rendezvous
  client : ClientPc
  /-- For each entry into `asock_send_directive`, whether the worker was still there. -/
  entries : List Bool
  startFailed : Bool
  listenerCloses : Nat
  freed : Bool

inductive Label where
  | call (call : PublicCall)
  | enter
  | slot (label : DirectiveSlot.Label)
  | resume (ticket : Nat)
  | join
  | free

/-- The steps of the worker and of the scheduler. -/
def internal : DirectiveSlot.Label → Bool
  | .send _ | .resume _ => false
  | _ => true

/-- The start of a server's worker that fails. -/
def failsStart (slot : Rendezvous) : DirectiveSlot.Label → Bool
  | .process outcome =>
      match slot.worker with
      | .executing .configuring .directStart _ => slot.role = .server && !outcome
      | _ => false
  | _ => false

/-- The stop path of a server's worker, which closes `m_server_socket`. -/
def closesListener (slot : Rendezvous) : DirectiveSlot.Label → Bool
  | .process _ =>
      match slot.worker with
      | .executing .running .directStop _ => slot.role = .server
      | _ => false
  | _ => false

def afterCall (call : PublicCall) : ClientPc := if call = .destroy then .freeing else .outside

def step (life : Lifecycle) : Label → Option Lifecycle
  | .call call =>
      if life.client = .outside ∧ offered life.slot.role call = true then
        match admitted life.slot.status call with
        | .ok _ => some { life with client := .entering call }
        | .error _ => some { life with client := afterCall call }
      else none
  | .enter =>
      match life.client with
      | .entering call => some { life with
          slot := send life.slot call.request
          client := .waiting call
          entries := life.entries ++ [decide (life.slot.worker ≠ .exited)] }
      | _ => none
  | .slot label =>
      if internal label then
        (DirectiveSlot.step life.slot label).map fun next => { life with
          slot := next
          startFailed := life.startFailed || failsStart life.slot label
          listenerCloses := life.listenerCloses + if closesListener life.slot label then 1 else 0 }
      else none
  | .resume ticket =>
      match life.client with
      | .waiting call =>
          (DirectiveSlot.step life.slot (.resume ticket)).map fun next => { life with
            slot := next
            client :=
              if next.calls ≠ [] then .waiting call
              else if call.stops then .joining call
              else .outside }
      | _ => none
  | .join =>
      match life.client with
      | .joining call =>
          if life.slot.worker = .exited then
            some { life with
              slot := { life.slot with status := .aborted }
              client := afterCall call }
          else none
      | _ => none
  | .free =>
      match life.client with
      | .freeing => some { life with client := .gone, freed := true }
      | _ => none

/-- An object whose worker has just entered its configuration loop. -/
def Lifecycle.created (role : Role) : Lifecycle where
  slot := .configured role
  client := .outside
  entries := []
  startFailed := false
  listenerCloses := 0
  freed := false

variable {life after : Lifecycle} {label : Label}

section Phases

/-- The loop a worker is in; `none` once it is on its way out. -/
def phaseOf : WorkerPc → Option Phase
  | .checking | .asleep => some .configuring
  | .fetching phase | .executing phase _ _ => some phase
  | .answering _ next => next
  | .exited | .crashed => none

theorem phase_entry (next : Option Phase) :
    phaseOf (match next with
      | some phase => phase.entry
      | none => .exited) = next := by
  cases next with
  | none => rfl
  | some phase => cases phase <;> rfl

theorem phase_send (slot : Rendezvous) (request : Request) :
    phaseOf (send slot request).worker = phaseOf slot.worker := by
  simp only [send]
  split
  · rename_i sleeps
    rw [sleeps]
    rfl
  · rfl

/-- The phase and the status after the work for a directive of the public functions. -/
theorem verdict_phases {role : Role} {phase : Phase} {type : DirectiveType} {outcome reads : Bool}
    {status : Option ServiceStatus} {result : AsockReturnCode} {next : Option Phase}
    (served : type ∈ Role.directives role)
    (answers : verdict role phase type outcome = .answers status reads result next) :
    (status = some .running ∧ next = some .running ∧ type ≠ .directStop) ∨
      (status = some .aborted ∧ next = none ∧ phase = .configuring) ∨
      (status = none ∧ next = some phase ∧ type ≠ .directStop) ∨
      (status = none ∧ next = none ∧ phase = .running ∧ type = .directStop) := by
  cases role <;> cases phase <;> cases type <;> simp [Role.directives] at served <;>
    cases outcome <;> simp_all [verdict]

end Phases

section Working

variable {slot next : Rendezvous} {work : DirectiveSlot.Label}

def answers : WorkerPc → Bool
  | .answering _ _ => true
  | _ => false

/-- What an internal step is to the client: nothing, the reply, or the execution of its directive. -/
inductive Worked (slot : Rendezvous) (work : DirectiveSlot.Label) (next : Rendezvous) : Prop where
  | idled (status : next.status = slot.status)
      (phase : phaseOf next.worker = phaseOf slot.worker) (direct : next.direct = slot.direct)
      (same : answers next.worker = answers slot.worker) (fails : failsStart slot work = false)
      (closes : closesListener slot work = false)
      (exits : next.worker = .exited ↔ slot.worker = .exited)
  | replied (status : next.status = slot.status)
      (phase : phaseOf next.worker = phaseOf slot.worker)
      (empty : next.direct.mDirectType = .directNone) (answered : answers slot.worker = true)
      (fails : failsStart slot work = false) (closes : closesListener slot work = false)
  | executed (phase : Phase) (ticket : Nat) (outcome reads : Bool) (status : Option ServiceStatus)
      (result : AsockReturnCode) (following : Option Phase) (label : work = .process outcome)
      (worker : slot.worker = .executing phase slot.direct.mDirectType ticket)
      (served : slot.direct.mDirectType ∈ Role.directives slot.role)
      (judged : verdict slot.role phase slot.direct.mDirectType outcome =
        .answers status reads result following)
      (now : next.status = status.getD slot.status) (direct : next.direct = slot.direct)
      (answering : next.worker = .answering result following)

theorem internal_worked (stage : Stage slot) (isInternal : internal work = true)
    (moved : Moved slot work next) : Worked slot work next := by
  cases moved with
  | sent request => cases isInternal
  | woken waits => exact .idled rfl rfl rfl rfl rfl rfl Iff.rfl
  | resumed awake => cases isInternal
  | roused pc | waited pc =>
      exact .idled rfl (by rw [pc]; rfl) rfl (by rw [pc]; rfl) rfl rfl (by simp [pc])
  | noticed pc filled =>
      exact .idled rfl (by rw [pc]; rfl) rfl (by rw [pc]; rfl) rfl rfl (by simp [pc])
  | fetched phase pc =>
      exact .idled rfl (by rw [pc]; rfl) rfl (by rw [pc]; rfl) rfl rfl (by simp [pc])
  | @processed outcome phase type ticket pc =>
      by_cases stale : phase = .running ∧ type = .directNone
      · obtain ⟨rfl, rfl⟩ := stale
        have passes : process slot .running .directNone ticket outcome =
            { slot with worker := .fetching .running } := by
          simp only [process, verdict_none, Phase.entry]
        rw [passes]
        exact .idled rfl (by rw [pc]; rfl) rfl (by rw [pc]; rfl) (by simp [failsStart, pc])
          (by simp [closesListener, pc]) (by simp [pc])
      · have held : type = slot.direct.mDirectType ∧
            slot.direct.mDirectType ∈ Role.directives slot.role := by
          cases stage with
          | idle calls empty worker | answered _ _ calls count empty given worker =>
              rw [pc] at worker
              cases phase <;> cases type <;> simp_all [roams]
          | pending number asleep request calls count sent direct served worker =>
              rw [pc] at worker
              rw [direct]
              refine ⟨?_, served⟩
              cases phase <;> cases type <;> simp_all [seeks]
          | executed _ _ result following calls count filled undefined worker =>
              rw [pc] at worker
              cases worker
        obtain ⟨rfl, served⟩ := held
        obtain ⟨status, reads, result, following, judged, _⟩ :=
          verdict_answers phase served outcome
        refine .executed phase ticket outcome reads status result following rfl pc served judged
          ?_ ?_ ?_ <;> simp only [process, judged]
  | answered result following pc =>
      refine .replied rfl ?_ rfl (by rw [pc]; rfl) rfl rfl
      rw [pc]
      exact phase_entry following

end Working

section Linking

/-- The client stops the worker. -/
def leaving : ClientPc → Bool
  | .waiting call => call.stops
  | .joining _ => true
  | _ => false

/-- What the status tells of the worker. -/
def Tied (status : ServiceStatus) (phase : Option Phase) (isLeaving : Bool) : Prop :=
  match status with
  | .init => False
  | .configuration => phase = some .configuring
  | .running => phase = some .running ∨ (phase = none ∧ isLeaving = true)
  | .aborted => phase = none

theorem tied_leaving {status : ServiceStatus} {phase : Option Phase} (isLeaving : Bool)
    (tied : Tied status phase false) : Tied status phase isLeaving := by
  cases status with
  | running => exact .inl (tied.resolve_right fun left => by cases left.2)
  | init | configuration | aborted => exact tied

/-- The call between its test of the status and its reply. -/
def underway : ClientPc → Option PublicCall
  | .entering call | .waiting call => some call
  | _ => none

structure Linked (life : Lifecycle) : Prop where
  stage : Stage life.slot
  idle : (∀ call, life.client ≠ .waiting call) → life.slot.calls = []
  served : ∀ call ∈ underway life.client, call.request.type ∈ Role.directives life.slot.role
  stopping : ∀ call ∈ underway life.client, call.stops = true → life.slot.status = .running
  own : ∀ call, life.client = .waiting call → life.slot.direct.mDirectType ≠ .directNone →
    life.slot.direct.mDirectType = call.request.type
  ends : ∀ call, life.client = .waiting call → call.stops = true →
    phaseOf life.slot.worker = none ∨
      (life.slot.direct.mDirectType = .directStop ∧ answers life.slot.worker = false ∧
        phaseOf life.slot.worker = some .running)
  joined : ∀ call, life.client = .joining call →
    phaseOf life.slot.worker = none ∧ life.slot.status = .running
  tied : Tied life.slot.status (phaseOf life.slot.worker) (leaving life.client)

theorem offered_served {role : Role} {call : PublicCall} (isOffered : offered role call = true) :
    call.request.type ∈ Role.directives role := by
  cases role <;> cases call <;> simp_all [offered, PublicCall.request, Role.directives]

theorem stops_type {call : PublicCall} (stops : call.stops = true) :
    call.request.type = .directStop := by
  cases call <;> simp_all [PublicCall.stops, PublicCall.request]

theorem type_stops {call : PublicCall} (same : call.request.type = .directStop) :
    call.stops = true := by
  cases call <;> simp_all [PublicCall.stops, PublicCall.request]

/-- With no call in the slot the worker has nothing in hand and the slot is empty. -/
theorem idle_slot {slot : Rendezvous} (stage : Stage slot) (calls : slot.calls = []) :
    roams slot.worker = true ∧ slot.direct.mDirectType = .directNone := by
  cases stage with
  | idle _ empty worker => exact ⟨worker, empty⟩
  | pending _ _ _ busy | executed _ _ _ _ busy | answered _ _ busy =>
      rw [calls] at busy
      cases busy

theorem internal_calls {slot next : Rendezvous} {work : DirectiveSlot.Label}
    (isInternal : internal work = true) (moved : Moved slot work next) (calls : slot.calls = []) :
    next.calls = [] := by
  cases moved with
  | sent request | resumed awake => cases isInternal
  | woken waits => simp [calls] at waits
  | roused | waited | noticed | fetched => exact calls
  | processed phase type ticket pc =>
      unfold process
      split <;> exact calls
  | @answered woken result following pc signalled =>
      cases woken with
      | none => exact calls
      | some ticket => simp [answer, setAsleep, calls]

theorem internal_role {slot next : Rendezvous} {work : DirectiveSlot.Label}
    (isInternal : internal work = true) (moved : Moved slot work next) : next.role = slot.role := by
  cases moved with
  | resumed awake => cases isInternal
  | processed phase type ticket pc =>
      unfold process
      split <;> rfl
  | _ => rfl

/-- Who waits while a directive is executed has sent it. -/
theorem filled_waits (linked : Linked life) (filled : life.slot.direct.mDirectType ≠ .directNone) :
    ∃ call, life.client = .waiting call ∧ life.slot.direct.mDirectType = call.request.type := by
  by_cases waits : ∃ call, life.client = .waiting call
  · obtain ⟨call, here⟩ := waits
    exact ⟨call, here, linked.own call here filled⟩
  · have calls := linked.idle fun call here => waits ⟨call, here⟩
    exact absurd (idle_slot linked.stage calls).2 filled

/-- A worker in one of its loops has the status of that loop. -/
theorem phase_status {status : ServiceStatus} {phase : Phase} {isLeaving : Bool}
    (tied : Tied status (some phase) isLeaving) :
    (status = .configuration ∧ phase = .configuring) ∨ (status = .running ∧ phase = .running) := by
  cases status with
  | init => exact tied.elim
  | configuration => exact .inl ⟨rfl, Option.some.inj tied⟩
  | running =>
      rcases tied with here | ⟨gone, _⟩
      · exact .inr ⟨rfl, Option.some.inj here⟩
      · cases gone
  | aborted => cases tied

theorem slot_linked {work : DirectiveSlot.Label} {next : Rendezvous} {failed : Bool} {closes : Nat}
    (linked : Linked life) (isInternal : internal work = true)
    (stepped : DirectiveSlot.step life.slot work = some next) :
    Linked { life with slot := next, startFailed := failed, listenerCloses := closes } := by
  have moved := step_moved stepped
  have serial : Serialised life.slot work := by
    intro request sends
    cases work <;> simp_all [internal, SerialDirectives.Label.request]
  have stage := step_stage linked.stage serial stepped
  have role := internal_role isInternal moved
  have idle : (∀ call, life.client ≠ .waiting call) → next.calls = [] :=
    fun alone => internal_calls isInternal moved (linked.idle alone)
  cases internal_worked linked.stage isInternal moved with
  | idled status phase direct same =>
      refine ⟨stage, idle, ?_, ?_, ?_, ?_, ?_, ?_⟩
      · simpa only [role] using linked.served
      · simpa only [status] using linked.stopping
      · simpa only [direct] using linked.own
      · simpa only [phase, direct, same] using linked.ends
      · simpa only [phase, status] using linked.joined
      · simpa only [phase, status] using linked.tied
  | replied status phase empty answered =>
      refine ⟨stage, idle, ?_, ?_, ?_, ?_, ?_, ?_⟩
      · simpa only [role] using linked.served
      · simpa only [status] using linked.stopping
      · exact fun call _ filled => absurd empty filled
      · intro call waits stops
        refine .inl ?_
        rcases linked.ends call waits stops with ended | ⟨_, quiet, _⟩
        · exact phase.trans ended
        · rw [answered] at quiet
          cases quiet
      · simpa only [phase, status] using linked.joined
      · simpa only [phase, status] using linked.tied
  | executed phase ticket outcome reads status result following label worker served judged now
      direct answering =>
      obtain ⟨call, waits, same⟩ := filled_waits linked (served_filled served)
      have before : phaseOf life.slot.worker = some phase := by rw [worker]; rfl
      have later : phaseOf next.worker = following := by rw [answering]; rfl
      have stopsRunning : call.stops = true → life.slot.status = .running :=
        linked.stopping call (by rw [waits]; rfl)
      have was := phase_status (before ▸ linked.tied)
      -- the four ways a worker answers a directive of the public functions
      have outcomes : (call.stops = true → following = none ∧ next.status = .running) ∧
          Tied next.status following (leaving life.client) := by
        rcases verdict_phases served judged with ⟨rfl, rfl, other⟩ | ⟨rfl, rfl, rfl⟩ |
          ⟨rfl, rfl, other⟩ | ⟨rfl, rfl, rfl, stop⟩
        · refine ⟨fun stops => ?_, ?_⟩
          · exact absurd (same.trans (stops_type stops)) other
          · rw [now]
            exact .inl rfl
        · refine ⟨fun stops => ?_, ?_⟩
          · rcases was with ⟨status, _⟩ | ⟨_, impossible⟩
            · rw [stopsRunning stops] at status
              cases status
            · cases impossible
          · rw [now]
            exact rfl
        · refine ⟨fun stops => ?_, ?_⟩
          · exact absurd (same.trans (stops_type stops)) other
          · rcases was with ⟨status, rfl⟩ | ⟨status, rfl⟩ <;> rw [now, Option.getD_none, status]
            · exact rfl
            · exact .inl rfl
        · have stops := type_stops (same.symm.trans stop)
          refine ⟨fun _ => ⟨rfl, now.trans (stopsRunning stops)⟩, ?_⟩
          rw [now, Option.getD_none, stopsRunning stops, waits]
          exact .inr ⟨rfl, stops⟩
      obtain ⟨ended, tied⟩ := outcomes
      have one : ∀ other ∈ underway life.client, other = call := by
        intro other member
        rw [waits] at member
        exact (Option.some.inj member).symm
      refine ⟨stage, idle, ?_, ?_, ?_, ?_, ?_, later ▸ tied⟩
      · simpa only [role] using linked.served
      · intro other member stops
        rw [one other member] at stops
        exact (ended stops).2
      · simpa only [direct] using linked.own
      · intro other here stops
        rw [waits, ClientPc.waiting.injEq] at here
        exact .inl (later.trans (ended (here ▸ stops)).1)
      · intro other here
        rw [waits] at here
        cases here

theorem enter_linked {call : PublicCall} {entries : List Bool} (linked : Linked life)
    (enters : life.client = .entering call) :
    Linked { life with
      slot := send life.slot call.request, client := .waiting call, entries := entries } := by
  have calls := linked.idle fun other here => by
    rw [enters] at here
    cases here
  have served := linked.served call (by rw [enters]; rfl)
  have status := linked.stopping call (by rw [enters]; rfl)
  have serial : Serialised life.slot (.send call.request) := by
    intro request sends
    cases sends
    exact ⟨calls, served⟩
  have one : ∀ other, ClientPc.waiting call = .waiting other → other = call := by
    intro other here
    exact (ClientPc.waiting.inj here).symm
  refine ⟨step_stage linked.stage serial rfl, ?_, ?_, ?_, ?_, ?_, ?_, ?_⟩
  · exact fun alone => absurd rfl (alone call)
  · intro other member
    cases Option.some.inj member
    exact served
  · intro other member
    cases Option.some.inj member
    exact status
  · intro other here _
    rw [one other here]
    rfl
  · intro other here stops
    rw [one other here] at stops
    have worker := (idle_slot linked.stage calls).1
    have tied := linked.tied
    simp only [Tied, status stops] at tied
    refine .inr ⟨stops_type stops, ?_, ?_⟩
    · simp only [send]
      split
      · rfl
      · cases pc : life.slot.worker <;> simp_all [roams, answers]
    · rw [phase_send]
      exact tied.resolve_right fun left => by simp [leaving, enters] at left
  · intro other here
    cases here
  · have tied := linked.tied
    rw [enters] at tied
    rw [phase_send]
    exact tied_leaving _ tied

/-- A call that finds its reply is the one call there is, and the slot is empty. -/
theorem stage_returns {slot : Rendezvous} {ticket : Nat} (stage : Stage slot)
    (awake : ⟨ticket, false⟩ ∈ slot.calls)
    (defined : slot.direct.mDirectResult ≠ asockUndefinedCode) :
    slot.direct.mDirectType = .directNone ∧ (resume slot ticket).calls = [] := by
  have empty := (stage_alive stage).reset ⟨ticket, false⟩ awake rfl defined
  refine ⟨empty, ?_⟩
  rw [resume, if_neg defined]
  cases stage with
  | idle calls => simp [calls]
  | pending _ _ _ calls | executed _ _ _ _ calls | answered _ _ calls =>
      rw [calls] at awake ⊢
      simp_all

theorem resume_linked {call : PublicCall} {ticket : Nat} {next : Rendezvous}
    (linked : Linked life) (waits : life.client = .waiting call)
    (stepped : DirectiveSlot.step life.slot (.resume ticket) = some next) :
    Linked { life with
      slot := next
      client :=
        if next.calls ≠ [] then .waiting call
        else if call.stops then .joining call
        else .outside } := by
  have stage := step_stage linked.stage (fun _ sends => by cases sends) stepped
  have status := linked.stopping call (by rw [waits]; rfl)
  have tied := linked.tied
  rw [waits] at tied
  cases step_moved stepped with
  | resumed awake =>
  -- a client that wakes without a result goes back to sleep
  by_cases undefined : life.slot.direct.mDirectResult = asockUndefinedCode
  · have again : resume life.slot ticket =
        { life.slot with calls := setAsleep life.slot.calls ticket true } := if_pos undefined
    have busy : (resume life.slot ticket).calls ≠ [] := by
      rw [again]
      simp only [setAsleep, ne_eq, List.map_eq_nil_iff]
      exact List.ne_nil_of_mem awake
    rw [if_pos busy]
    rw [again] at stage ⊢
    refine ⟨stage, fun alone => absurd rfl (alone call), ?_, ?_, ?_, ?_, ?_, tied⟩
    · exact waits ▸ linked.served
    · exact waits ▸ linked.stopping
    · exact waits ▸ linked.own
    · exact waits ▸ linked.ends
    · intro other here
      cases here
  · obtain ⟨empty, calls⟩ := stage_returns linked.stage awake undefined
    have returns : (resume life.slot ticket).worker = life.slot.worker ∧
        (resume life.slot ticket).status = life.slot.status := by
      rw [resume, if_neg undefined]
      exact ⟨rfl, rfl⟩
    rw [if_neg (by simp [calls])]
    cases stops : call.stops with
    | false =>
        refine ⟨stage, fun _ => calls, ?_, ?_, ?_, ?_, ?_, ?_⟩
        · intro other member
          cases member
        · intro other member
          cases member
        · intro other here
          cases here
        · intro other here
          cases here
        · intro other here
          cases here
        · rw [returns.1, returns.2]
          simp only [leaving, stops] at tied
          exact tied
    | true =>
        -- the slot is empty, so the worker has taken the stop and left its loop
        have ended : phaseOf life.slot.worker = none := by
          refine (linked.ends call waits stops).resolve_right fun still => ?_
          rw [empty] at still
          cases still.1
        refine ⟨stage, fun _ => calls, ?_, ?_, ?_, ?_, ?_, ?_⟩
        · intro other member
          cases member
        · intro other member
          cases member
        · intro other here
          cases here
        · intro other here
          cases here
        · intro other here
          rw [returns.1, returns.2]
          exact ⟨ended, status stops⟩
        · rw [returns.1, returns.2]
          simp only [leaving, stops] at tied
          exact tied

/-- A client that is in no call and joins nobody. -/
def resting : ClientPc → Bool
  | .outside | .freeing | .gone => true
  | _ => false

theorem resting_linked {client : ClientPc} {freed : Bool} {status : ServiceStatus}
    (linked : Linked life) (rests : resting client = true)
    (alone : ∀ call, life.client ≠ .waiting call)
    (tied : Tied status (phaseOf life.slot.worker) false) :
    Linked { life with
      slot := { life.slot with status := status }, client := client, freed := freed } := by
  have nothing : ∀ call, client ≠ .entering call ∧ client ≠ .waiting call ∧ client ≠ .joining call := by
    intro call
    cases client <;> simp_all [resting]
  have unused : ∀ call, call ∉ underway client := by
    intro call
    cases client <;> simp_all [resting, underway]
  have calls := linked.idle alone
  have stage : Stage { life.slot with status := status } := by
    obtain ⟨worker, empty⟩ := idle_slot linked.stage calls
    cases linked.stage with
    | idle _ _ _ history => exact .idle calls empty worker (history_same history rfl rfl rfl)
    | pending _ _ _ busy | executed _ _ _ _ busy | answered _ _ busy =>
        rw [calls] at busy
        cases busy
  exact ⟨stage, fun _ => calls, fun call member => absurd member (unused call),
    fun call member => absurd member (unused call),
    fun call here => absurd here (nothing call).2.1,
    fun call here => absurd here (nothing call).2.1,
    fun call here => absurd here (nothing call).2.2, tied_leaving _ tied⟩

/-- Everything one step can do. -/
inductive Happened (life : Lifecycle) : Label → Lifecycle → Prop where
  | called {call : PublicCall} (request : Request) (outside : life.client = .outside)
      (isOffered : offered life.slot.role call = true)
      (admits : admitted life.slot.status call = .ok request) :
      Happened life (.call call) { life with client := .entering call }
  | turnedAway {call : PublicCall} (refusal : Refusal) (outside : life.client = .outside)
      (isOffered : offered life.slot.role call = true)
      (refused : admitted life.slot.status call = .error refusal) :
      Happened life (.call call) { life with client := afterCall call }
  | entered (call : PublicCall) (enters : life.client = .entering call) :
      Happened life .enter { life with
        slot := send life.slot call.request
        client := .waiting call
        entries := life.entries ++ [decide (life.slot.worker ≠ .exited)] }
  | worked {work : DirectiveSlot.Label} (next : Rendezvous) (isInternal : internal work = true)
      (works : DirectiveSlot.step life.slot work = some next) :
      Happened life (.slot work) { life with
        slot := next
        startFailed := life.startFailed || failsStart life.slot work
        listenerCloses := life.listenerCloses + if closesListener life.slot work then 1 else 0 }
  | resumed {ticket : Nat} (call : PublicCall) (next : Rendezvous)
      (waits : life.client = .waiting call)
      (resumes : DirectiveSlot.step life.slot (.resume ticket) = some next) :
      Happened life (.resume ticket) { life with
        slot := next
        client :=
          if next.calls ≠ [] then .waiting call
          else if call.stops then .joining call
          else .outside }
  | joined (call : PublicCall) (joins : life.client = .joining call)
      (exited : life.slot.worker = .exited) :
      Happened life .join { life with
        slot := { life.slot with status := .aborted }
        client := afterCall call }
  | freed (frees : life.client = .freeing) :
      Happened life .free { life with client := .gone, freed := true }

theorem step_happened (stepped : step life label = some after) : Happened life label after := by
  cases label with
  | call call =>
      obtain ⟨⟨outside, isOffered⟩, calls⟩ := Option.ite_none_right_eq_some.mp stepped
      cases admits : admitted life.slot.status call with
      | ok request =>
          rw [admits] at calls
          cases calls
          exact .called request outside isOffered admits
      | error refusal =>
          rw [admits] at calls
          cases calls
          exact .turnedAway refusal outside isOffered admits
  | slot work =>
      obtain ⟨isInternal, works⟩ := Option.ite_none_right_eq_some.mp stepped
      obtain ⟨next, worked, rfl⟩ := Option.map_eq_some_iff.mp works
      exact .worked next isInternal worked
  | enter =>
      simp only [step] at stepped
      split at stepped
      case h_2 => cases stepped
      case h_1 call enters =>
        cases stepped
        exact .entered call enters
  | resume ticket =>
      simp only [step] at stepped
      split at stepped
      case h_2 => cases stepped
      case h_1 call waits =>
        obtain ⟨next, resumes, rfl⟩ := Option.map_eq_some_iff.mp stepped
        exact .resumed call next waits resumes
  | join =>
      simp only [step] at stepped
      split at stepped
      case h_2 => cases stepped
      case h_1 call joins =>
        obtain ⟨exited, joined⟩ := Option.ite_none_right_eq_some.mp stepped
        cases joined
        exact .joined call joins exited
  | free =>
      simp only [step] at stepped
      split at stepped
      case h_2 => cases stepped
      case h_1 frees =>
        cases stepped
        exact .freed frees

theorem afterCall_rests (call : PublicCall) : resting (afterCall call) = true := by
  unfold afterCall
  split <;> rfl

theorem step_linked (linked : Linked life) (stepped : step life label = some after) :
    Linked after := by
  have tied := linked.tied
  cases step_happened stepped with
  | @called call request outside isOffered admits =>
      rw [outside] at tied
      have alone : ∀ other, life.client ≠ .waiting other := by
        intro other here
        rw [outside] at here
        cases here
      have one : ∀ other ∈ underway (.entering call), other = call := by
        intro other member
        exact (Option.some.inj member).symm
      refine ⟨linked.stage, fun _ => linked.idle alone, ?_, ?_, ?_, ?_, ?_, tied⟩
      · intro other member
        rw [one other member]
        exact offered_served isOffered
      · intro other member stops
        rw [one other member] at stops
        by_contra stopped
        cases call <;> simp_all [admitted, PublicCall.stops]
      · intro other here
        cases here
      · intro other here
        cases here
      · intro other here
        cases here
  | @turnedAway call refusal outside =>
      rw [outside] at tied
      refine resting_linked linked (afterCall_rests call) ?_ tied
      intro other here
      rw [outside] at here
      cases here
  | entered call enters => exact enter_linked linked enters
  | worked next isInternal works => exact slot_linked linked isInternal works
  | resumed call next waits resumes => exact resume_linked linked waits resumes
  | joined call joins exited =>
      refine resting_linked linked (afterCall_rests call) ?_ (linked.joined call joins).1
      intro other here
      rw [joins] at here
      cases here
  | freed frees =>
      rw [frees] at tied
      refine resting_linked linked rfl ?_ tied
      intro other here
      rw [frees] at here
      cases here

theorem created_linked (role : Role) : Linked (.created role) := by
  refine ⟨configured_stage role, fun _ => rfl, ?_, ?_, ?_, ?_, ?_, rfl⟩
  · intro call member
    cases member
  · intro call member
    cases member
  · intro call here
    cases here
  · intro call here
    cases here
  · intro call here
    cases here

end Linking

section DeadWorkers

/-- The calls that test for `Running` only. -/
def PublicCall.configures : PublicCall → Bool
  | .bind _ | .listen | .start => true
  | _ => false

def Label.called : Label → Option PublicCall
  | .call made => some made
  | _ => none

/-- No bind, listen or start once the worker has ended. -/
def SparesAborted (life : Lifecycle) (label : Label) : Prop :=
  ∀ call ∈ label.called, call.configures = true → life.slot.status ≠ .aborted

instance (life : Lifecycle) (label : Label) : Decidable (SparesAborted life label) :=
  inferInstanceAs (Decidable (∀ call ∈ label.called,
    call.configures = true → life.slot.status ≠ .aborted))

/-- Every entry into `asock_send_directive` found the worker alive, a call that is still in there
when the worker has gone has its reply, and the calls that test the status are refused then. -/
structure NeverDead (life : Lifecycle) : Prop where
  entered : ∀ alive ∈ life.entries, alive = true
  waiting : life.slot.worker = .exited → ∀ call ∈ life.slot.calls,
    call.asleep = false ∧ life.slot.direct.mDirectResult ≠ asockUndefinedCode
  refused : life.slot.worker = .exited → life.client = .outside → ∀ call : PublicCall,
    call.configures = false → ∃ refusal, admitted life.slot.status call = .error refusal

structure Attended (life : Lifecycle) : Prop where
  entering : ∀ call, life.client = .entering call → phaseOf life.slot.worker ≠ none
  filled : life.slot.direct.mDirectType ≠ .directNone → life.slot.worker ≠ .exited
  entered : ∀ alive ∈ life.entries, alive = true

theorem ended_refused {life : Lifecycle} (tied : Tied life.slot.status none false)
    {call : PublicCall} (tests : call.configures = false) :
    ∃ refusal, admitted life.slot.status call = .error refusal := by
  have status : life.slot.status = .aborted := by
    revert tied
    cases life.slot.status <;> simp [Tied]
  cases call <;> simp_all [admitted, PublicCall.configures]

theorem step_attended (linked : Linked life) (spares : SparesAborted life label)
    (stepped : step life label = some after) (attended : Attended life) : Attended after := by
  have rests : ∀ call other, afterCall call ≠ .entering other := by
    intro call other here
    have isResting := afterCall_rests call
    rw [here] at isResting
    cases isResting
  cases step_happened stepped with
  | @called call request outside isOffered admits =>
      refine ⟨fun _ _ gone => ?_, attended.filled, attended.entered⟩
      have tied := linked.tied
      rw [outside, gone] at tied
      by_cases configures : call.configures = true
      · have status := spares call rfl configures
        revert tied
        cases found : life.slot.status <;> simp_all [Tied, leaving]
      · obtain ⟨refusal, refused⟩ := ended_refused tied (by simpa using configures)
        rw [refused] at admits
        cases admits
  | @turnedAway call =>
      exact ⟨fun other here => absurd here (rests call other), attended.filled, attended.entered⟩
  | entered call enters =>
      have up := attended.entering call enters
      have alive : life.slot.worker ≠ .exited := by
        intro gone
        rw [gone] at up
        exact up rfl
      refine ⟨(fun other here => by cases here), fun _ gone => ?_, ?_⟩
      · have same := phase_send life.slot call.request
        rw [show (send life.slot call.request).worker = .exited from gone] at same
        exact up same.symm
      · intro entry member
        rcases List.mem_append.mp member with before | now
        · exact attended.entered entry before
        · rw [List.mem_singleton.mp now]
          exact decide_eq_true alive
  | worked next isInternal works =>
      cases internal_worked linked.stage isInternal (step_moved works) with
      | idled status phase direct same fails closes exits =>
          refine ⟨?_, ?_, attended.entered⟩
          · simpa only [phase] using attended.entering
          · simpa only [direct, ne_eq, exits] using attended.filled
      | replied status phase empty =>
          refine ⟨?_, fun filled => absurd empty filled, attended.entered⟩
          simpa only [phase] using attended.entering
      | executed phase ticket outcome reads status result following label worker served judged
          now direct answering =>
          obtain ⟨call, waits, _⟩ := filled_waits linked (served_filled served)
          refine ⟨fun other here => ?_, fun _ gone => ?_, attended.entered⟩
          · rw [waits] at here
            cases here
          · rw [answering] at gone
            cases gone
  | resumed call next waits resumes =>
      refine ⟨fun other here => ?_, ?_, attended.entered⟩
      · simp only at here
        split at here
        · cases here
        · split at here <;> cases here
      · cases step_moved resumes with
        | resumed awake =>
            unfold resume
            split
            · exact attended.filled
            · exact fun filled => absurd rfl filled
  | joined call joins exited =>
      exact ⟨fun other here => absurd here (rests call other), attended.filled, attended.entered⟩
  | freed frees =>
      exact ⟨(fun other here => by cases here), attended.filled, attended.entered⟩

theorem attended_alive (linked : Linked life) (attended : Attended life) : NeverDead life := by
  refine ⟨attended.entered, ?_, ?_⟩
  · intro gone call member
    have recorded := stage_recorded linked.stage
    rcases recorded.unblocked call member with here | replied
    · exact absurd gone (attended.filled here.1)
    · exact replied
  · intro gone outside call tests
    have tied := linked.tied
    rw [gone, outside] at tied
    exact ended_refused tied tests

theorem calls_find_worker (role : Role) (life : Lifecycle)
    (run : GuardedRun step SparesAborted (.created role) life) : NeverDead life := by
  obtain ⟨linked, attended⟩ := run.invariant_with Linked Attended
    (fun _ _ _ linked _ stepped => step_linked linked stepped)
    (fun _ _ _ linked attended spares stepped => step_attended linked spares stepped attended)
    (created_linked role)
    ⟨(fun _ here => by cases here), (fun filled => absurd rfl filled),
      (fun _ member => by cases member)⟩
  exact attended_alive linked attended

/-- A call of the client that the worker answers while it waits in its configuration loop. -/
def configuredCall (call : PublicCall) (ticket : Nat) (outcome : Bool) : List Label :=
  [.slot .check, .call call, .enter, .slot .check, .slot .fetch, .slot (.process outcome),
    .slot (.answer (some ticket)), .resume ticket]

-- The tests' retry loop: a listen that fails ends the worker, and the next bind waits for it.
theorem retry_waits_forever : ∃ life, Run step (.created .server) life ∧ ¬ NeverDead life := by
  obtain ⟨life, run, tested⟩ := replayed step (fun _ _ => True) (.created .server)
    (configuredCall (.bind ⟨8, 16, 0, 0⟩) 0 true ++ configuredCall .listen 1 false ++
      [.call (.bind ⟨8, 16, 0, 0⟩), .enter])
    (fun life => life.entries = [true, true, false]) (by decide +kernel)
  refine ⟨life, run, fun alive => ?_⟩
  have dead := alive.entered false (by simp [of_decide_eq_true tested])
  cases dead

/-- Start or listen, then stop, of a worker in its main loop. -/
def stopCall (ticket : Nat) : List Label :=
  [.call .stop, .enter, .slot .fetch, .slot (.process true), .slot (.answer (some ticket)),
    .resume ticket, .join]

theorem stopped_worker_refuses : ∃ life, Run step (.created .service) life ∧
    life.slot.worker = .exited ∧ life.entries = [true, true] ∧ NeverDead life := by
  obtain ⟨life, run, tested⟩ := replayed step SparesAborted (.created .service)
    (configuredCall .start 0 true ++ stopCall 1 ++ [.call (.createAsock ⟨8, 16, 24, 32⟩), .call .stop])
    (fun life => life.slot.worker = .exited ∧ life.entries = [true, true]) (by decide +kernel)
  obtain ⟨gone, entered⟩ := of_decide_eq_true tested
  exact ⟨life, run.weaken fun _ _ _ => trivial, gone, entered,
    calls_find_worker .service life run⟩

end DeadWorkers

end Libasock.WorkerLifecycle
