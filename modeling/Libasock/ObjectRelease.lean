import Libasock.WorkerLifecycle

/-!
What `asock_server_destroy` and `asock_service_destroy` leave behind. A destroy
stops a running worker and joins it; a worker that has never been started, and
the descriptor of one whose start failed, it does not know of.
-/

namespace Libasock.ObjectRelease
open GuardedRuns ReturnCodes SerialDirectives WorkerLifecycle
open DirectiveSlot hiding Label step

variable {life after : Lifecycle} {label : Label}

/-- A destroy comes after a start that succeeded. -/
def DestroysStarted (life : Lifecycle) (label : Label) : Prop :=
  label.called = some .destroy →
    life.slot.status = .running ∨ (life.slot.status = .aborted ∧ life.startFailed = false)

instance (life : Lifecycle) (label : Label) :
    Decidable (DestroysStarted life label) :=
  inferInstanceAs (Decidable (label.called = some .destroy →
    life.slot.status = .running ∨ (life.slot.status = .aborted ∧ life.startFailed = false)))

/-- A freed object has no worker left, and a freed server no listening descriptor. -/
structure ReleasedLate (life : Lifecycle) : Prop where
  ended : life.freed = true → life.slot.worker = .exited
  closed : life.freed = true → life.slot.role = .server → life.listenerCloses = 1

section Endings

/-- How often the worker has closed its listening descriptor. -/
structure Listening (life : Lifecycle) : Prop where
  up : phaseOf life.slot.worker ≠ none → life.listenerCloses = 0 ∧ life.startFailed = false
  down : life.slot.role = .server → phaseOf life.slot.worker = none → life.startFailed = false →
    life.listenerCloses = 1
  failed : life.startFailed = true → life.slot.status = .aborted

structure Released (life : Lifecycle) : Prop where
  ended : life.client = .freeing ∨ life.client = .gone → life.slot.worker = .exited ∧
    (life.slot.role = .server → life.listenerCloses = 1)
  gone : life.freed = true → life.client = .gone
  listening : Listening life

/-- A worker on its way out has failed to start or has closed its listening descriptor. -/
theorem executed_listening {slot : Rendezvous} {phase : Phase} {ticket : Nat}
    {outcome reads : Bool} {status : Option ServiceStatus} {result : AsockReturnCode}
    {following : Option Phase}
    (worker : slot.worker = .executing phase slot.direct.mDirectType ticket)
    (served : slot.direct.mDirectType ∈ Role.directives slot.role)
    (judged : verdict slot.role phase slot.direct.mDirectType outcome =
      .answers status reads result following)
    (stopping : slot.direct.mDirectType = .directStop → phase = .running) :
    (following ≠ none → failsStart slot (.process outcome) = false ∧
      closesListener slot (.process outcome) = false) ∧
    (slot.role = .server → following = none → failsStart slot (.process outcome) = false →
      closesListener slot (.process outcome) = true) ∧
    (failsStart slot (.process outcome) = true → status = some .aborted) := by
  simp only [failsStart, closesListener, worker]
  generalize slot.direct.mDirectType = type at *
  cases role : slot.role <;> cases phase <;> cases type <;> cases outcome <;>
    simp_all [verdict, Role.directives]
  all_goals simp [← judged.2.2.2]

/-- A reply and a step of the scheduler keep what the worker has closed. -/
theorem listening_same (listening : Listening life) {slot : Rendezvous}
    {work : DirectiveSlot.Label} (role : slot.role = life.slot.role)
    (status : slot.status = life.slot.status)
    (phase : phaseOf slot.worker = phaseOf life.slot.worker)
    (fails : failsStart life.slot work = false) (closes : closesListener life.slot work = false) :
    Listening { life with
      slot := slot
      startFailed := life.startFailed || failsStart life.slot work
      listenerCloses := life.listenerCloses +
        if closesListener life.slot work then 1 else 0 } := by
  refine ⟨?_, ?_, ?_⟩
  · simpa [fails, closes, phase] using listening.up
  · simpa [fails, closes, phase, role] using listening.down
  · simpa [fails, closes, status] using listening.failed

theorem slot_listening {work : DirectiveSlot.Label} {next : Rendezvous} (linked : Linked life)
    (isInternal : internal work = true) (listening : Listening life)
    (stepped : DirectiveSlot.step life.slot work = some next) :
    Listening { life with
      slot := next
      startFailed := life.startFailed || failsStart life.slot work
      listenerCloses := life.listenerCloses +
        if closesListener life.slot work then 1 else 0 } := by
  have role := internal_role isInternal (step_moved stepped)
  cases internal_worked linked.stage isInternal (step_moved stepped) with
  | idled status phase direct same fails closes =>
      exact listening_same listening role status phase fails closes
  | replied status phase empty answered fails closes =>
      exact listening_same listening role status phase fails closes
  | executed phase ticket outcome reads status result following label worker served judged now
      direct answering =>
      obtain ⟨call, waits, same⟩ := filled_waits linked (served_filled served)
      have before : phaseOf life.slot.worker = some phase := by rw [worker]; rfl
      have later : phaseOf next.worker = following := by rw [answering]; rfl
      obtain ⟨unclosed, unfailed⟩ := listening.up (by rw [before]; intro impossible; cases impossible)
      have stopping : life.slot.direct.mDirectType = .directStop → phase = .running := by
        intro stop
        have running := linked.stopping call (by rw [waits]; rfl)
          (type_stops (same.symm.trans stop))
        rcases phase_status (before ▸ linked.tied) with ⟨status, _⟩ | ⟨_, runs⟩
        · rw [running] at status
          cases status
        · exact runs
      subst label
      obtain ⟨stays, closes, fails⟩ := executed_listening worker served judged stopping
      refine ⟨?_, ?_, ?_⟩
      · simp only [later, unclosed, unfailed]
        intro up
        simp [stays up]
      · simp only [later, unclosed, unfailed, role, Bool.false_or, Nat.zero_add]
        intro server down succeeded
        rw [closes server down succeeded]
        rfl
      · simp only [unfailed, Bool.false_or, now]
        intro failed
        rw [fails failed]
        rfl

end Endings

section Results

/-- Where the client stands is nothing to the worker's descriptor. -/
theorem listening_client (listening : Listening life) (client : ClientPc) (freed : Bool) :
    Listening { life with client := client, freed := freed } :=
  ⟨listening.up, listening.down, listening.failed⟩

/-- The worker is gone, so nothing but the status can change. -/
theorem destroy_released (linked : Linked life) (released : Released life)
    (outside : life.client = .outside) (status : life.slot.status = .aborted)
    (succeeded : life.startFailed = false) :
    life.slot.worker = .exited ∧ (life.slot.role = .server → life.listenerCloses = 1) := by
  have tied := linked.tied
  rw [status, outside] at tied
  have down : phaseOf life.slot.worker = none := tied
  have calls := linked.idle fun call here => by
    rw [outside] at here
    cases here
  refine ⟨?_, fun server => released.listening.down server down succeeded⟩
  have roaming := (idle_slot linked.stage calls).1
  cases pc : life.slot.worker <;> simp_all [roams, phaseOf]

/-- An object that a call is still going on with has not been freed. -/
theorem unfreed_client {client : ClientPc} (released : Released life)
    (here : life.client = client) (inside : client ≠ .gone) : life.freed = false := by
  cases freed : life.freed with
  | false => rfl
  | true => exact absurd (here.symm.trans (released.gone freed)) inside

theorem step_released (linked : Linked life) (started : DestroysStarted life label)
    (stepped : step life label = some after) (released : Released life) : Released after := by
  have listening := released.listening
  cases step_happened stepped with
  | called request outside =>
      have unfreed := unfreed_client released outside (by intro impossible; cases impossible)
      refine ⟨?_, fun freed => ?_, listening_client listening _ _⟩
      · rintro (here | here) <;> cases here
      · rw [unfreed] at freed
        cases freed
  | @turnedAway call refusal outside isOffered refused =>
      have unfreed := unfreed_client released outside (by intro impossible; cases impossible)
      refine ⟨fun here => ?_, fun freed => ?_, listening_client listening _ _⟩
      · by_cases destroys : call = .destroy
        · subst destroys
          rcases started rfl with running | ⟨aborted, succeeded⟩
          · simp [admitted, running] at refused
          · have done := destroy_released linked released outside aborted succeeded
            exact done
        · simp only [afterCall, if_neg destroys] at here
          rcases here with here | here <;> cases here
      · rw [unfreed] at freed
        cases freed
  | entered call enters =>
      have unfreed := unfreed_client released enters (by intro impossible; cases impossible)
      refine ⟨?_, fun freed => ?_, ⟨?_, ?_, listening.failed⟩⟩
      · rintro (here | here) <;> cases here
      · rw [unfreed] at freed
        cases freed
      · simpa only [phase_send] using listening.up
      · intro server
        simpa only [phase_send] using listening.down server
  | worked next isInternal works =>
      have slot := slot_listening linked isInternal listening works
      refine ⟨fun here => ?_, released.gone, slot⟩
      obtain ⟨exited, closed⟩ := released.ended here
      -- a worker that has ended takes no step
      cases internal_worked linked.stage isInternal (step_moved works) with
      | idled status phase direct same fails closes exits =>
          refine ⟨exits.mpr exited, fun server => ?_⟩
          rw [internal_role isInternal (step_moved works)] at server
          simpa [closes] using closed server
      | replied status phase empty answered =>
          rw [exited] at answered
          cases answered
      | executed phase ticket outcome reads status result following label worker =>
          rw [exited] at worker
          cases worker
  | resumed call next waits resumes =>
      have unfreed := unfreed_client released waits (by intro impossible; cases impossible)
      refine ⟨?_, fun freed => ?_, ?_⟩
      · intro here
        simp only at here
        split at here
        · rcases here with here | here <;> cases here
        · split at here <;> rcases here with here | here <;> cases here
      · rw [unfreed] at freed
        cases freed
      · cases step_moved resumes with
        | resumed awake =>
            unfold resume
            split <;> exact ⟨listening.up, listening.down, listening.failed⟩
  | joined call joins exited =>
      have unfreed := unfreed_client released joins (by intro impossible; cases impossible)
      obtain ⟨down, running⟩ := linked.joined call joins
      have succeeded : life.startFailed = false := by
        cases failed : life.startFailed with
        | false => rfl
        | true =>
            have aborted := listening.failed failed
            rw [running] at aborted
            cases aborted
      refine ⟨fun _ => ⟨exited, fun server => ?_⟩, fun freed => ?_,
        ⟨listening.up, listening.down, fun _ => rfl⟩⟩
      · exact listening.down server down succeeded
      · rw [unfreed] at freed
        cases freed
  | freed frees =>
      exact ⟨fun _ => released.ended (.inl frees), fun _ => rfl, listening_client listening _ _⟩

theorem created_released (role : Role) : Released (.created role) := by
  refine ⟨?_, ?_, ⟨fun _ => ⟨rfl, rfl⟩, ?_, ?_⟩⟩
  · rintro (here | here) <;> cases here
  · intro freed
    cases freed
  · intro _ down
    cases down
  · intro failed
    cases failed

theorem destroyed_after_worker (role : Role) (life : Lifecycle)
    (run : GuardedRun step DestroysStarted (.created role) life) : ReleasedLate life := by
  obtain ⟨_, released⟩ := run.invariant_with Linked Released
    (fun _ _ _ linked _ stepped => step_linked linked stepped)
    (fun _ _ _ linked released started stepped => step_released linked started stepped released)
    (created_linked role) (created_released role)
  exact ⟨fun freed => (released.ended (.inr (released.gone freed))).1,
    fun freed => (released.ended (.inr (released.gone freed))).2⟩

-- A service that is destroyed without a start leaves its worker asleep on the freed directive.
theorem unstarted_destroy_frees : ∃ life, Run step (.created .service) life ∧
    ¬ ReleasedLate life := by
  obtain ⟨life, run, tested⟩ := replayed step (fun _ _ => True) (.created .service)
    [.slot .check, .call .destroy, .free]
    (fun life => life.freed = true ∧ life.slot.worker = .asleep) (by decide +kernel)
  obtain ⟨freed, sleeps⟩ := of_decide_eq_true tested
  refine ⟨life, run, fun late => ?_⟩
  have ended := late.ended freed
  rw [sleeps] at ended
  cases ended

theorem running_server_released : ∃ life, Run step (.created .server) life ∧ life.freed = true ∧
    life.listenerCloses = 1 ∧ ReleasedLate life := by
  obtain ⟨life, run, tested⟩ := replayed step DestroysStarted (.created .server)
    (configuredCall .listen 0 true ++ [.call .destroy, .enter, .slot .fetch, .slot (.process true),
      .slot (.answer (some 1)), .resume 1, .join, .free])
    (fun life => life.freed = true ∧ life.listenerCloses = 1) (by decide +kernel)
  obtain ⟨freed, closed⟩ := of_decide_eq_true tested
  exact ⟨life, run.weaken fun _ _ _ => trivial, freed, closed,
    destroyed_after_worker .server life run⟩

end Results

end Libasock.ObjectRelease
