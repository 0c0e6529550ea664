import Libasock.SerialDirectives

/-!
A directive that is sent in turn, to a worker that has not exited, is answered:
the worker needs at most four steps of its own from the filled slot to the
result, whatever else happens in between, and it can always take the next one.
A directive sent after the worker's exit stays in the slot for ever.
-/

namespace Libasock.DirectiveAnswers
open GuardedRuns ReturnCodes DirectiveSlot SerialDirectives

/-- No call begins while another one is under way or after the worker has exited. -/
def InTurn (slot : Rendezvous) (label : Label) : Prop :=
  Serialised slot label ∧ ∀ _ ∈ Label.request label, slot.worker ≠ .exited

instance (slot : Rendezvous) (label : Label) : Decidable (InTurn slot label) :=
  inferInstanceAs (Decidable (_ ∧ ∀ _ ∈ Label.request label, slot.worker ≠ .exited))

/-- The worker's own steps. -/
def Label.working : Label → Bool
  | .check | .fetch | .process _ | .answer _ => true
  | .send _ | .wake _ | .resume _ | .wakeWorker => false

/-- The steps the worker still needs for a directive in the slot. A type it has read before the
directive came costs it one more turn. -/
def ahead : WorkerPc → Nat
  | .checking | .executing .running .directNone _ => 4
  | .fetching _ => 3
  | .executing .. => 2
  | .answering .. => 1
  | .asleep | .exited | .crashed => 0

/-- The directive was executed, and its call has returned the result or is awake with it. -/
def Answered (slot : Rendezvous) (ticket : Nat) : Prop :=
  ∃ execution ∈ slot.executed, execution.ticket = ticket ∧
    ((ticket, execution.result) ∈ slot.returned ∨
      (⟨ticket, false⟩ ∈ slot.calls ∧ slot.direct.mDirectResult = execution.result ∧
        execution.result ≠ asockUndefinedCode))

/-- What the slot promises its callers. -/
structure DirectivesServed (slot : Rendezvous) : Prop extends Recorded slot where
  present : slot.direct.mDirectType ≠ .directNone → slot.worker ≠ .exited
  unstuck : ∀ ticket < slot.sent.length, Answered slot ticket ∨
    ∃ label, Label.working label = true ∧ (step slot label).isSome = true
  answers : ∀ labels later, exec (guarded step InTurn) slot labels = some later →
    4 ≤ labels.countP Label.working → ∀ ticket < slot.sent.length, Answered later ticket

variable {slot after later : Rendezvous} {label : Label} {ticket : Nat}

section Steps

/-- The one call is inside its wait loop and has no answer. -/
structure Waits (slot : Rendezvous) (ticket : Nat) : Prop where
  call : ∃ asleep, slot.calls = [⟨ticket, asleep⟩]
  unanswered : slot.direct.mDirectResult = asockUndefinedCode

def Present (slot : Rendezvous) : Prop :=
  slot.direct.mDirectType ≠ .directNone → slot.worker ≠ .exited

theorem process_direct (slot : Rendezvous) (phase : Phase) (type : DirectiveType) (ticket : Nat)
    (outcome : Bool) : (process slot phase type ticket outcome).direct = slot.direct ∧
      (process slot phase type ticket outcome).worker ≠ .exited := by
  unfold process
  split
  · cases phase <;> exact ⟨rfl, nofun⟩
  · exact ⟨rfl, nofun⟩
  · exact ⟨rfl, nofun⟩

theorem step_present (present : Present slot) (inTurn : InTurn slot label)
    (stepped : step slot label = some after) : Present after := by
  intro filled
  cases step_moved stepped with
  | sent request =>
      have up := inTurn.2 request rfl
      simp only [send]
      split
      · intro exited
        cases exited
      · exact up
  | woken => exact present filled
  | resumed =>
      by_cases unanswered : slot.direct.mDirectResult = asockUndefinedCode
      · rw [resume, if_pos unanswered] at filled ⊢
        exact present filled
      · rw [resume, if_neg unanswered] at filled
        exact absurd rfl filled
  | roused | waited | noticed | fetched =>
      intro exited
      cases exited
  | processed phase type ticket => exact (process_direct slot phase type ticket _).2
  | answered result next => exact absurd rfl filled

/-- The records only grow. -/
theorem moved_grows (moved : Moved slot label after) :
    slot.executed ⊆ after.executed ∧ slot.returned ⊆ after.returned := by
  cases moved with
  | resumed =>
      unfold resume
      split
      · exact ⟨List.Subset.refl _, List.Subset.refl _⟩
      · exact ⟨List.Subset.refl _, List.subset_append_left ..⟩
  | processed phase type ticket =>
      unfold process
      split
      · exact ⟨List.Subset.refl _, List.Subset.refl _⟩
      · exact ⟨List.Subset.refl _, List.Subset.refl _⟩
      · exact ⟨List.subset_append_left .., List.Subset.refl _⟩
  | _ => exact ⟨List.Subset.refl _, List.Subset.refl _⟩

theorem answered_kept (stage : Stage slot) (serial : Serialised slot label)
    (stepped : step slot label = some after) (answered : Answered slot ticket) :
    Answered after ticket := by
  have moved := step_moved stepped
  obtain ⟨executes, returns⟩ := moved_grows moved
  obtain ⟨execution, member, own, done | ⟨awake, given, defined⟩⟩ := answered
  · exact ⟨execution, executes member, own, .inl (returns done)⟩
  · refine ⟨execution, executes member, own, ?_⟩
    cases stage with
    | idle calls =>
        rw [calls] at awake
        cases awake
    | pending _ _ _ _ _ _ direct =>
        rw [direct] at given
        exact absurd given.symm defined
    | executed _ _ _ _ _ _ _ undefined =>
        rw [undefined] at given
        exact absurd given.symm defined
    | answered other result calls count empty _ worker =>
        obtain rfl : ticket = other := by simpa [calls] using awake
        obtain ⟨request, rfl⟩ | ⟨number, rfl⟩ | ⟨number, rfl⟩ | ⟨pc, _, rfl⟩ :=
          roams_moved worker empty moved
        · have free := (serial request rfl).1
          rw [calls] at free
          cases free
        · cases moved with
          | woken waits => simp [calls] at waits
        · cases moved with
          | resumed there =>
              obtain rfl : number = ticket := by simpa [calls] using there
              left
              rw [resume, if_neg (by rw [given]; exact defined), given]
              simp
        · exact .inr ⟨awake, given, defined⟩

theorem filled_ahead {type : DirectiveType} (phase : Phase) (number : Nat)
    (filled : type ≠ .directNone) : ahead (.executing phase type number) = 2 := by
  cases phase <;> cases type <;> first | rfl | exact absurd rfl filled

theorem woken_waits (waits : Waits slot ticket) (number : Nat) (asleep : Bool)
    (direct : after.direct = slot.direct)
    (calls : after.calls = setAsleep slot.calls number asleep) : Waits after ticket := by
  obtain ⟨⟨before, alone⟩, unanswered⟩ := waits
  refine ⟨?_, by rw [direct]; exact unanswered⟩
  rw [calls, alone]
  by_cases same : ticket = number
  · subst same
    exact ⟨asleep, sleeper_changed ..⟩
  · exact ⟨before, by simp [setAsleep, same]⟩

/-- Until it is executed the directive's own type is what the worker comes to read. -/
theorem pending_worked {request : Request} (waits : Waits slot ticket)
    (type : slot.direct.mDirectType = request.type)
    (served : request.type ∈ Role.directives slot.role)
    (worker : seeks request.type ticket slot.worker = true) (serial : Serialised slot label)
    (moved : Moved slot label after) : Waits after ticket ∧
      ahead after.worker + (if Label.working label then 1 else 0) ≤ ahead slot.worker := by
  have filled := served_filled served
  cases moved with
  | sent other =>
      obtain ⟨asleep, alone⟩ := waits.call
      have free := (serial other rfl).1
      rw [alone] at free
      cases free
  | @woken number => exact ⟨woken_waits waits number false rfl rfl, Nat.le_refl _⟩
  | @resumed number =>
      rw [resume, if_pos waits.unanswered]
      exact ⟨woken_waits waits number true rfl rfl, Nat.le_refl _⟩
  | roused pc => simp [pc, seeks] at worker
  | waited pc empty => exact absurd (type ▸ empty) filled
  | noticed pc =>
      rw [pc]
      exact ⟨⟨waits.call, waits.unanswered⟩, Nat.le_refl _⟩
  | fetched phase pc =>
      rw [pc]
      refine ⟨⟨waits.call, waits.unanswered⟩, ?_⟩
      simp only [type, filled_ahead phase _ filled]
      exact Nat.le_refl _
  | @processed outcome phase read number pc =>
      rw [pc]
      by_cases stale : phase = .running ∧ read = .directNone
      · obtain ⟨rfl, rfl⟩ := stale
        simp only [process, verdict_none]
        exact ⟨⟨waits.call, waits.unanswered⟩, Nat.le_refl _⟩
      · have own : read = request.type := by
          rw [pc] at worker
          cases phase <;> cases read <;> simp_all [seeks]
        subst own
        obtain ⟨status, reads, result, next, answers, _⟩ := verdict_answers phase served outcome
        rw [filled_ahead phase number filled]
        simp only [process, answers]
        exact ⟨⟨waits.call, waits.unanswered⟩, Nat.le_refl _⟩
  | answered result next pc => simp [pc, seeks] at worker

theorem executed_worked {result : AsockReturnCode} {next : Option Phase}
    (waits : Waits slot ticket) (worker : slot.worker = .answering result next)
    (computed : Computed slot ticket result) (serial : Serialised slot label)
    (moved : Moved slot label after) : Answered after ticket ∨ (Waits after ticket ∧
      ahead after.worker + (if Label.working label then 1 else 0) ≤ ahead slot.worker) := by
  obtain ⟨asleep, alone⟩ := waits.call
  cases moved with
  | sent other =>
      have free := (serial other rfl).1
      rw [alone] at free
      cases free
  | @woken number => exact .inr ⟨woken_waits waits number false rfl rfl, Nat.le_refl _⟩
  | @resumed number =>
      right
      rw [resume, if_pos waits.unanswered]
      exact ⟨woken_waits waits number true rfl rfl, Nat.le_refl _⟩
  | roused pc | waited pc | noticed pc | fetched phase pc | processed phase type number pc =>
      rw [worker] at pc
      cases pc
  | @answered woken given after pc signalled =>
      rw [worker] at pc
      cases pc
      obtain ⟨defined, execution, here, own, computes⟩ := computed
      left
      refine ⟨execution, List.mem_of_getElem? here, own, .inr ⟨?_, computes.symm, ?_⟩⟩
      · rw [signal_wakes result next alone signalled]
        exact List.mem_singleton_self _
      · rw [computes]
        exact defined

/-- A step of the worker brings the answer closer, no other step puts it off. -/
theorem waits_worked (stage : Stage slot) (waits : Waits slot ticket)
    (serial : Serialised slot label) (stepped : step slot label = some after) :
    Answered after ticket ∨ (Waits after ticket ∧
      ahead after.worker + (if Label.working label then 1 else 0) ≤ ahead slot.worker) := by
  obtain ⟨asleep, alone⟩ := waits.call
  have moved := step_moved stepped
  cases stage with
  | idle calls =>
      rw [alone] at calls
      cases calls
  | pending other _ request calls _ _ direct served worker =>
      obtain rfl : ticket = other := by simp_all
      exact .inr (pending_worked waits (by rw [direct]) served worker serial moved)
  | executed other _ result next calls _ _ _ worker computed =>
      obtain rfl : ticket = other := by simp_all
      exact executed_worked waits worker computed serial moved
  | answered other result _ _ _ given _ computed =>
      rw [waits.unanswered] at given
      exact absurd given.symm computed.1

/-- The worker is up while a call waits for it, and can go on. -/
theorem waits_enabled (stage : Stage slot) (present : Present slot) (waits : Waits slot ticket) :
    1 ≤ ahead slot.worker ∧ ∃ label, Label.working label = true ∧ (step slot label).isSome = true := by
  obtain ⟨asleep, alone⟩ := waits.call
  have filled : slot.direct.mDirectType ≠ .directNone := by
    cases stage with
    | idle calls =>
        rw [alone] at calls
        cases calls
    | pending _ _ request _ _ _ direct served =>
        rw [direct]
        exact served_filled served
    | executed _ _ _ _ _ _ filled => exact filled
    | answered _ _ _ _ _ given _ computed =>
        rw [waits.unanswered] at given
        exact absurd given.symm computed.1
  obtain ⟨awake, sound⟩ := (stage_recorded stage).attended filled
  cases pc : slot.worker with
  | checking =>
      refine ⟨by simp [ahead], .check, rfl, ?_⟩
      simp [step, pc, filled]
  | asleep => exact absurd pc awake
  | fetching phase => exact ⟨by simp [ahead], .fetch, rfl, by simp [step, pc]⟩
  | executing phase type number =>
      refine ⟨?_, .process true, rfl, by simp [step, pc]⟩
      cases phase <;> cases type <;> simp [ahead]
  | answering result next =>
      refine ⟨by simp [ahead], .answer (if asleep then some ticket else none), rfl, ?_⟩
      have signalled : chosen slot (if asleep then some ticket else none) = true := by
        cases asleep <;> simp [chosen, alone]
      simp [step, pc, signalled]
  | exited => exact absurd pc (present filled)
  | crashed => exact absurd pc sound

end Steps

section Runs

/-- Every call but the one under way has been answered. -/
theorem stage_answers (stage : Stage slot) (early : ticket < slot.sent.length) :
    Answered slot ticket ∨ Waits slot ticket := by
  have returned : ∀ {done back : Nat}, History slot done back → back ≤ done → ticket < back →
      Answered slot ticket := by
    intro done back history within below
    have numbered : (slot.executed.map fun execution => execution.ticket)[ticket]? =
        some ticket := by
      rw [history.tickets, List.getElem?_range (Nat.lt_of_lt_of_le below within)]
    rw [List.getElem?_map] at numbered
    obtain ⟨execution, here, own⟩ := Option.map_eq_some_iff.mp numbered
    have taken : execution ∈ slot.executed.take back :=
      List.mem_of_getElem? ((List.getElem?_take_of_lt below).trans here)
    refine ⟨execution, List.mem_of_getElem? here, own, .inl ?_⟩
    rw [history.replies]
    exact List.mem_map.mpr ⟨execution, taken, by rw [own]⟩
  cases stage with
  | idle calls empty worker history => exact .inl (returned history (Nat.le_refl _) early)
  | pending other asleep request calls count sent direct served worker history =>
      rcases Nat.lt_succ_iff_lt_or_eq.mp (count ▸ early) with below | rfl
      · exact .inl (returned history (Nat.le_refl _) below)
      · exact .inr ⟨⟨asleep, calls⟩, by rw [direct]⟩
  | executed other asleep result next calls count filled undefined worker computed history =>
      rcases Nat.lt_succ_iff_lt_or_eq.mp (count ▸ early) with below | rfl
      · exact .inl (returned history (Nat.le_succ _) below)
      · exact .inr ⟨⟨asleep, calls⟩, undefined⟩
  | answered other result calls count empty given worker computed history =>
      left
      rcases Nat.lt_succ_iff_lt_or_eq.mp (count ▸ early) with below | rfl
      · exact returned history (Nat.le_succ _) below
      · obtain ⟨defined, execution, here, own, computes⟩ := computed
        refine ⟨execution, List.mem_of_getElem? here, own, .inr ⟨?_, ?_, ?_⟩⟩
        · rw [calls]
          exact List.mem_singleton_self _
        · rw [given, computes]
        · rw [computes]
          exact defined

/-- The answer comes with the last of the steps that the worker has ahead. -/
theorem run_answers {labels : List Label} (stage : Stage slot) (present : Present slot)
    (played : exec (guarded step InTurn) slot labels = some later)
    (near : Answered slot ticket ∨
      (Waits slot ticket ∧ ahead slot.worker ≤ labels.countP Label.working)) :
    Answered later ticket := by
  induction labels generalizing slot with
  | nil =>
      cases played
      rcases near with answered | ⟨waits, within⟩
      · exact answered
      · have more := (waits_enabled stage present waits).1
        simp only [List.countP_nil, Nat.le_zero_eq] at within
        omega
  | cons label rest ih =>
      obtain ⟨next, stepped, tail⟩ := exec_cons_some played
      obtain ⟨inTurn, stepped⟩ := guarded_some stepped
      refine ih (step_stage stage inTurn.1 stepped) (step_present present inTurn stepped) tail ?_
      rcases near with answered | ⟨waits, within⟩
      · exact .inl (answered_kept stage inTurn.1 stepped answered)
      · rcases waits_worked stage waits inTurn.1 stepped with answered | ⟨still, less⟩
        · exact .inl answered
        · refine .inr ⟨still, ?_⟩
          rw [List.countP_cons] at within
          omega

theorem ahead_four (pc : WorkerPc) : ahead pc ≤ 4 := by
  cases pc with
  | executing phase type => cases phase <;> cases type <;> simp [ahead]
  | _ => simp [ahead]

theorem directives_served (role : Role) (slot : Rendezvous)
    (run : GuardedRun step InTurn (.configured role) slot) : DirectivesServed slot := by
  obtain ⟨stage, present⟩ := run.invariant (fun slot => Stage slot ∧ Present slot)
    (fun _ _ _ held inTurn stepped => ⟨step_stage held.1 inTurn.1 stepped,
      step_present held.2 inTurn stepped⟩)
    ⟨configured_stage role, fun filled => absurd rfl filled⟩
  refine ⟨stage_recorded stage, present, fun ticket early => ?_, ?_⟩
  · exact (stage_answers stage early).imp id fun waits => (waits_enabled stage present waits).2
  · intro labels later played enough ticket early
    refine run_answers stage present played ((stage_answers stage early).imp id fun waits => ?_)
    exact ⟨waits, Nat.le_trans (ahead_four slot.worker) enough⟩

def createFor (pointer : Pointer) : Request :=
  ⟨.directCreateAsock, ⟨pointer, pointer + 1, pointer + 2, pointer + 3⟩⟩

def plainRequest (type : DirectiveType) : Request := ⟨type, ⟨0, 0, 0, 0⟩⟩

/-- `asock_service_start`, up to its return. -/
def startService : List Label :=
  [.check, .send (plainRequest .directStart), .check, .fetch, .process true, .answer (some 0),
    .resume 0]

-- Two threads create an asock each: the second directive takes the slot from the first, the first
-- thread takes the reply of the second, and the second thread sleeps on. A start after a stop is
-- in turn and finds no worker.
theorem directives_lost :
    (∃ slot, Run step (.configured .service) slot ∧ ¬ DirectivesServed slot ∧
      slot.calls = [⟨2, true⟩] ∧ slot.direct.mDirectType = .directNone) ∧
    ∃ slot, GuardedRun step Serialised (.configured .service) slot ∧ ¬ DirectivesServed slot ∧
      slot.calls = [⟨2, true⟩] ∧ slot.worker = .exited := by
  constructor
  · obtain ⟨slot, run, tested⟩ := replayed step (fun _ _ => True) (.configured .service)
      (startService ++ [.send (createFor 8), .send (createFor 16), .fetch, .process true,
        .answer (some 1), .resume 1])
      (fun slot => slot.calls = [⟨2, true⟩] ∧ slot.direct.mDirectType = .directNone)
      (by decide +kernel)
    obtain ⟨sleeps, empty⟩ := of_decide_eq_true tested
    refine ⟨slot, run, fun served => ?_, sleeps, empty⟩
    rcases served.unblocked ⟨2, true⟩ (by simp [sleeps]) with here | ⟨awake, _⟩
    · exact here.1 empty
    · cases awake
  · obtain ⟨slot, run, tested⟩ := replayed step Serialised (.configured .service)
      (startService ++ [.send (plainRequest .directStop), .fetch, .process true,
        .answer (some 1), .resume 1, .send (plainRequest .directStart)])
      (fun slot => slot.calls = [⟨2, true⟩] ∧ slot.worker = .exited ∧
        slot.direct.mDirectType = .directStart) (by decide +kernel)
    obtain ⟨sleeps, gone, filled⟩ := of_decide_eq_true tested
    refine ⟨slot, run, fun served => ?_, sleeps, gone⟩
    exact served.present (by rw [filled]; decide) gone

theorem created_in_turn : ∃ slot, Run step (.configured .service) slot ∧
    slot.returned = [(0, asockSuccess), (1, asockSuccess), (2, asockFailure)] ∧
    DirectivesServed slot := by
  obtain ⟨slot, run, tested⟩ := replayed step InTurn (.configured .service)
    (startService ++ [.send (createFor 8), .fetch, .process true, .answer (some 1), .resume 1,
      .send (createFor 16), .fetch, .process false, .answer (some 2), .resume 2])
    (fun slot => slot.returned =
      [(0, asockSuccess), (1, asockSuccess), (2, asockFailure)]) (by decide +kernel)
  exact ⟨slot, run.weaken fun _ _ _ => trivial, of_decide_eq_true tested,
    directives_served .service slot run⟩

end Runs

end Libasock.DirectiveAnswers
