import Libasock.WorkerLifecycle

/-!
A server or a service as an object that answers at once. What the calls of one
client give back, over the directive slot, the worker and their wakings, is what
an object with three states would give back that knows no worker.
-/

namespace Libasock.AtomicCalls
open GuardedRuns ReturnCodes DirectiveSlot SerialDirectives WorkerLifecycle

section Object

inductive Lifespan where
  | configuring | running | ended
  deriving DecidableEq

inductive Reply where
  | refused (refusal : Refusal)
  | code (result : AsockReturnCode)
  | stopped
  deriving DecidableEq

def codeOf (succeeds : Bool) : AsockReturnCode := if succeeds then asockSuccess else asockFailure

/-- The reply and what becomes of the object; `none` for a call that never comes back. Whether
the work of a call succeeds is not the object's choice. -/
def reply (now : Lifespan) (call : PublicCall) (succeeds : Bool) : Option (Reply × Lifespan) :=
  match now, call with
  | .configuring, .bind _ | .configuring, .createAsock _ =>
      some (.code (codeOf succeeds), .configuring)
  | .configuring, .listen =>
      some (.code (codeOf succeeds), if succeeds then .running else .ended)
  | .configuring, .start => some (.code asockSuccess, .running)
  | .running, .bind _ | .running, .listen | .running, .start =>
      some (.refused (.code asockErrBadstate), .running)
  | .running, .createAsock _ => some (.code (codeOf succeeds), .running)
  | .running, .stop | .running, .destroy => some (.stopped, .ended)
  | .ended, .createAsock _ => some (.refused .null, .ended)
  | .ended, .bind _ | .ended, .listen | .ended, .start => none
  | .configuring, .stop | .configuring, .destroy => some (.refused .nothing, .configuring)
  | .ended, .stop | .ended, .destroy => some (.refused .nothing, .ended)

abbrev History := List (PublicCall × Reply)

inductive Plays : History → Lifespan → Prop where
  | created : Plays [] .configuring
  | answered {history : History} {now next : Lifespan} {call : PublicCall} {answer : Reply}
      (before : Plays history now) (succeeds : Bool)
      (answers : reply now call succeeds = some (answer, next)) :
      Plays (history ++ [(call, answer)]) next

/-- A listen or a start that succeeded. -/
def starts (entry : PublicCall × Reply) : Bool :=
  (entry.1 = .listen || entry.1 = .start) && entry.2 = .code asockSuccess

def ends (entry : PublicCall × Reply) : Bool := entry.2 = .stopped

/-- The object is started once at most, and stopped no more often than started. -/
def Counted (history : History) : Lifespan → Prop
  | .configuring => history.countP starts = 0 ∧ history.countP ends = 0
  | .running => history.countP starts = 1 ∧ history.countP ends = 0
  | .ended => history.countP starts ≤ 1 ∧ history.countP ends ≤ history.countP starts

/-- A call that comes back leaves the object as it was, fails to start it, starts it or ends it. -/
theorem reply_moves {now next : Lifespan} {call : PublicCall} {answer : Reply} {succeeds : Bool}
    (answers : reply now call succeeds = some (answer, next)) :
    (starts (call, answer) = false ∧ ends (call, answer) = false ∧
        (next = now ∨ (now = .configuring ∧ next = .ended))) ∨
      (starts (call, answer) = true ∧ ends (call, answer) = false ∧
        now = .configuring ∧ next = .running) ∨
      (starts (call, answer) = false ∧ ends (call, answer) = true ∧
        now = .running ∧ next = .ended) := by
  cases now <;> cases call <;> cases succeeds <;> cases answers <;>
    simp [starts, ends, codeOf, asockSuccess, asockFailure]

theorem plays_counted {history : History} {now : Lifespan} (plays : Plays history now) :
    Counted history now := by
  induction plays with
  | created => exact ⟨rfl, rfl⟩
  | @answered history now next call answer before succeeds answers counted =>
      have more : ∀ test : PublicCall × Reply → Bool,
          (history ++ [(call, answer)]).countP test =
            history.countP test + if test (call, answer) then 1 else 0 := by
        intro test
        rw [List.countP_append, List.countP_singleton]
      rcases reply_moves answers with ⟨noStart, noEnd, rfl | ⟨rfl, rfl⟩⟩ |
        ⟨start, noEnd, rfl, rfl⟩ | ⟨noStart, isEnd, rfl, rfl⟩
      · cases next <;> simpa [Counted, more, noStart, noEnd] using counted
      · simp only [Counted, more, noStart, noEnd] at counted ⊢
        simp only [counted]
        decide
      · simp only [Counted, more, start, noEnd] at counted ⊢
        simp only [counted]
        decide
      · simp only [Counted, more, noStart, isEnd] at counted ⊢
        simp only [counted]
        decide

end Object

section Records

/-- The object with the calls that have come back and what they gave. -/
structure Recorded where
  life : Lifecycle
  history : History

/-- The call that comes back with a step. A stop gives its reply when the worker is joined. -/
def returned (life after : Lifecycle) : WorkerLifecycle.Label → Option (PublicCall × Reply)
  | .call call =>
      match admitted life.slot.status call with
      | .error refusal => some (call, .refused refusal)
      | .ok _ => none
  | .resume _ =>
      match life.client, after.client with
      | .waiting call, .outside => some (call, .code life.slot.direct.mDirectResult)
      | _, _ => none
  | .join =>
      match life.client with
      | .joining call => some (call, .stopped)
      | _ => none
  | .enter | .slot _ | .free => none

def step (recorded : Recorded) (label : WorkerLifecycle.Label) : Option Recorded :=
  (WorkerLifecycle.step recorded.life label).map fun after =>
    ⟨after, recorded.history ++ (returned recorded.life after label).toList⟩

def Recorded.created (role : Role) : Recorded := ⟨.created role, []⟩

def lifespan : ServiceStatus → Lifespan
  | .init | .configuration => .configuring
  | .running => .running
  | .aborted => .ended

end Records

section Answers
variable {slot next : Rendezvous} {work : DirectiveSlot.Label}

/-- The result of the directive under way, once the worker has it. -/
def answerOf (slot : Rendezvous) : Option AsockReturnCode :=
  match slot.worker with
  | .answering result _ => some result
  | _ => if slot.direct.mDirectType = .directNone then some slot.direct.mDirectResult else none

theorem answer_quiet (quiet : answers slot.worker = false) : answerOf slot =
    if slot.direct.mDirectType = .directNone then some slot.direct.mDirectResult else none := by
  unfold answerOf
  split
  · rename_i result following pc
    rw [pc] at quiet
    cases quiet
  · rfl

theorem answer_sets (slot : Rendezvous) (result : AsockReturnCode) (following : Option Phase)
    (woken : Option Nat) : answerOf (answer slot result following woken) = some result := by
  have quiet : answers (answer slot result following woken).worker = false := by
    cases following with
    | none => rfl
    | some phase => cases phase <;> rfl
  rw [answer_quiet quiet]
  rfl

/-- The answer moves from the worker's hands into the slot. -/
theorem answering_kept (isInternal : internal work = true) (moved : Moved slot work next)
    (answering : answers slot.worker = true) : answerOf next = answerOf slot := by
  cases moved with
  | woken => rfl
  | sent | resumed => cases isInternal
  | roused pc | waited pc | noticed pc | fetched phase pc | processed phase type ticket pc =>
      rw [pc] at answering
      cases answering
  | answered result following pc =>
      rw [answer_sets]
      simp only [answerOf, pc]

/-- An internal step keeps the status and the answer, or it executes the directive. -/
theorem work_answers (stage : Stage slot) (isInternal : internal work = true)
    (moved : Moved slot work next) :
    (next.status = slot.status ∧ answerOf next = answerOf slot) ∨
      ∃ phase outcome reads status result following,
        answerOf slot = none ∧ phaseOf slot.worker = some phase ∧
        slot.direct.mDirectType ∈ Role.directives slot.role ∧
        verdict slot.role phase slot.direct.mDirectType outcome =
          .answers status reads result following ∧
        next.status = status.getD slot.status ∧ answerOf next = some result := by
  cases internal_worked stage isInternal moved with
  | executed phase ticket outcome reads status result following label worker served judged
      now direct answering =>
      have quiet : answers slot.worker = false := by rw [worker]; rfl
      refine .inr ⟨phase, outcome, reads, status, result, following, ?_, by rw [worker]; rfl,
        served, judged, now, ?_⟩
      · rw [answer_quiet quiet, if_neg (served_filled served)]
      · simp only [answerOf, answering]
  | idled status phase direct same =>
      refine .inl ⟨status, ?_⟩
      cases answering : answers slot.worker with
      | false => rw [answer_quiet answering, answer_quiet (same.trans answering), direct]
      | true => exact answering_kept isInternal moved answering
  | replied status phase empty answered =>
      exact .inl ⟨status, answering_kept isInternal moved answered⟩

/-- The answer a call finds when it comes back is the one in the slot. -/
theorem returned_answer {ticket : Nat} (stage : Stage slot) (awake : ⟨ticket, false⟩ ∈ slot.calls)
    (defined : slot.direct.mDirectResult ≠ asockUndefinedCode) :
    answerOf slot = some slot.direct.mDirectResult := by
  have empty := (stage_returns stage awake defined).1
  have quiet : answers slot.worker = false := by
    cases stage with
    | idle calls =>
        rw [calls] at awake
        cases awake
    | pending _ _ request _ _ _ direct =>
        rw [direct] at defined
        exact absurd rfl defined
    | executed _ _ _ _ _ _ filled => exact absurd empty filled
    | answered _ _ _ _ _ _ worker =>
        cases pc : slot.worker <;> rw [pc] at worker <;> simp_all [roams, answers]
  rw [answer_quiet quiet, if_pos empty]

end Answers

section Simulation
variable {recorded after : Recorded} {life : Lifecycle} {now : Lifespan}

/-- What the object says of a call in its wait: before its directive is executed the object is
what the status says, afterwards it has given the answer. -/
structure Underway (life : Lifecycle) (call : PublicCall) (now : Lifespan) : Prop where
  isOffered : offered life.slot.role call = true
  stopping : call.stops = true → now = .running
  pending : call.stops = false → answerOf life.slot = none →
    lifespan life.slot.status = now ∧ ∃ request, admitted life.slot.status call = .ok request
  answered : call.stops = false → ∀ result, answerOf life.slot = some result →
    ∃ succeeds, reply now call succeeds = some (.code result, lifespan life.slot.status)

/-- The object is in the state that the client knows of. -/
def Mirrors (life : Lifecycle) (now : Lifespan) : Prop :=
  match life.client with
  | .outside | .freeing | .gone => lifespan life.slot.status = now
  | .entering call => offered life.slot.role call = true ∧ lifespan life.slot.status = now ∧
      ∃ request, admitted life.slot.status call = .ok request
  | .waiting call => Underway life call now
  | .joining call => call.stops = true ∧ now = .running

theorem resting_mirrors (rests : resting life.client = true)
    (same : lifespan life.slot.status = now) : Mirrors life now := by
  unfold Mirrors
  cases client : life.client with
  | outside | freeing | gone => exact same
  | entering call | waiting call | joining call =>
      rw [client] at rests
      cases rests

/-- A refusal is the object's own. -/
theorem refusal_reply {status : ServiceStatus} {call : PublicCall} {refusal : Refusal}
    (begun : status ≠ .init) (refused : admitted status call = .error refusal) :
    reply (lifespan status) call true = some (.refused refusal, lifespan status) := by
  cases status with
  | init => exact absurd rfl begun
  | configuration | running | aborted =>
      cases call <;> cases refused <;> rfl

/-- So is what a worker in one of its loops makes of a directive. -/
theorem verdict_reply {role : Role} {phase : Phase} {call : PublicCall} {outcome reads : Bool}
    {old : ServiceStatus} {status : Option ServiceStatus} {result : AsockReturnCode}
    {following : Option Phase} {request : Request} (isOffered : offered role call = true)
    (stays : call.stops = false) (admits : admitted old call = .ok request)
    (was : (old = .configuration ∧ phase = .configuring) ∨ (old = .running ∧ phase = .running))
    (answers : verdict role phase call.request.type outcome =
      .answers status reads result following) :
    reply (lifespan old) call outcome = some (.code result, lifespan (status.getD old)) := by
  rcases was with ⟨rfl, rfl⟩ | ⟨rfl, rfl⟩
  · cases role <;> cases call <;> cases isOffered <;> cases stays <;> cases outcome <;>
      cases answers <;> rfl
  · cases role <;> cases call <;> cases isOffered <;> cases stays <;> cases outcome <;>
      cases answers <;> cases admits <;> rfl

theorem tied_begun {status : ServiceStatus} {phase : Option Phase} {isLeaving : Bool}
    (tied : Tied status phase isLeaving) : status ≠ .init := by
  rintro rfl
  exact tied

/-- What a step has to establish when no call comes back with it. -/
def Continues (recorded after : Recorded) (now : Lifespan) : Prop :=
  after.history = recorded.history ∧ Mirrors after.life now

/-- What it has to establish when one does. -/
def Responds (recorded after : Recorded) (now : Lifespan) : Prop :=
  ∃ call answer succeeds next, after.history = recorded.history ++ [(call, answer)] ∧
    reply now call succeeds = some (answer, next) ∧ Mirrors after.life next

theorem enter_mirrors {call : PublicCall} {entries : List Bool} (linked : Linked life)
    (enters : life.client = .entering call) (mirrors : Mirrors life now) :
    Mirrors { life with
      slot := send life.slot call.request, client := .waiting call, entries := entries } now := by
  simp only [Mirrors, enters] at mirrors
  obtain ⟨isOffered, same, admits⟩ := mirrors
  have calls := linked.idle fun other here => by
    rw [enters] at here
    cases here
  have quiet : answers (send life.slot call.request).worker = false := by
    have worker := (idle_slot linked.stage calls).1
    simp only [send]
    split
    · rfl
    · cases pc : life.slot.worker <;> simp_all [roams, answers]
  have filled : call.request.type ≠ .directNone :=
    served_filled (linked.served call (by rw [enters]; rfl))
  have unanswered : answerOf (send life.slot call.request) = none := by
    rw [answer_quiet quiet, if_neg]
    exact filled
  refine ⟨isOffered, ?_, fun _ _ => ⟨same, admits⟩, ?_⟩
  · intro stops
    rw [← same, linked.stopping call (by rw [enters]; rfl) stops]
    rfl
  · intro _ result given
    rw [unanswered] at given
    cases given

theorem work_mirrors {work : DirectiveSlot.Label} {next : Rendezvous} {failed : Bool}
    {closes : Nat} (linked : Linked life) (isInternal : internal work = true)
    (moved : Moved life.slot work next) (mirrors : Mirrors life now) :
    Mirrors { life with slot := next, startFailed := failed, listenerCloses := closes } now := by
  have role := internal_role isInternal moved
  rcases work_answers linked.stage isInternal moved with ⟨status, answer⟩ |
    ⟨phase, outcome, reads, status, result, following, before, up, served, judged, later, given⟩
  · cases client : life.client with
    | waiting call =>
        simp only [Mirrors, client] at mirrors ⊢
        obtain ⟨isOffered, stopping, pending, answered⟩ := mirrors
        exact ⟨by simpa only [role] using isOffered, stopping,
          by simpa only [answer, status] using pending,
          by simpa only [answer, status] using answered⟩
    | entering call => simpa only [Mirrors, client, status, role] using mirrors
    | outside | joining call | freeing | gone =>
        simpa only [Mirrors, client, status] using mirrors
  · obtain ⟨call, waits, same⟩ := filled_waits linked (served_filled served)
    simp only [Mirrors, waits] at mirrors ⊢
    refine ⟨by simpa only [role] using mirrors.isOffered, mirrors.stopping, ?_, ?_⟩
    · intro _ impossible
      rw [given] at impossible
      cases impossible
    · intro stays other found
      rw [given, Option.some.injEq] at found
      subst found
      obtain ⟨standing, request, admits⟩ := mirrors.pending stays before
      refine ⟨outcome, ?_⟩
      rw [← standing, later]
      rw [same] at judged
      exact verdict_reply mirrors.isOffered stays admits (phase_status (up ▸ linked.tied)) judged

theorem resume_mirrors {call : PublicCall} {ticket : Nat} {next : Rendezvous}
    {history : History} (linked : Linked life) (waits : life.client = .waiting call)
    (resumes : DirectiveSlot.step life.slot (.resume ticket) = some next)
    (mirrors : Mirrors life now) :
    let client := if next.calls ≠ [] then .waiting call
      else if call.stops then .joining call else .outside
    let later := { life with slot := next, client := client }
    Continues ⟨life, history⟩
        ⟨later, history ++ (returned life later (.resume ticket)).toList⟩ now ∨
      Responds ⟨life, history⟩
        ⟨later, history ++ (returned life later (.resume ticket)).toList⟩ now := by
  intro client later
  simp only [Mirrors, waits] at mirrors
  cases step_moved resumes with
  | resumed awake =>
      by_cases undefined : life.slot.direct.mDirectResult = asockUndefinedCode
      · have again : resume life.slot ticket =
            { life.slot with calls := setAsleep life.slot.calls ticket true } := if_pos undefined
        have busy : (resume life.slot ticket).calls ≠ [] := by
          rw [again]
          simp only [setAsleep, ne_eq, List.map_eq_nil_iff]
          exact List.ne_nil_of_mem awake
        have stays : client = .waiting call := if_pos busy
        left
        simp only [Continues, returned, waits, later, stays, Mirrors, Option.toList_none,
          List.append_nil, true_and]
        rw [again]
        exact ⟨mirrors.isOffered, mirrors.stopping, mirrors.pending, mirrors.answered⟩
      · obtain ⟨_, calls⟩ := stage_returns linked.stage awake undefined
        have given := returned_answer linked.stage awake undefined
        have status : (resume life.slot ticket).status = life.slot.status := by
          rw [resume, if_neg undefined]
        have ends : client = if call.stops then .joining call else .outside := by
          simp only [client, calls, ne_eq, not_true_eq_false, if_false]
        cases stops : call.stops with
        | true =>
            left
            rw [stops, if_pos rfl] at ends
            simp only [Continues, returned, waits, later, ends, Mirrors, Option.toList_none,
              List.append_nil, true_and]
            exact ⟨stops, mirrors.stopping stops⟩
        | false =>
            right
            rw [stops, if_neg (by decide)] at ends
            obtain ⟨succeeds, answers⟩ := mirrors.answered stops _ given
            refine ⟨call, _, succeeds, _, ?_, answers, ?_⟩
            · simp only [returned, waits, later, ends, Option.toList_some]
            · simp only [Mirrors, later, ends, status]

theorem step_mirrors {label : WorkerLifecycle.Label} (linked : Linked recorded.life)
    (mirrors : Mirrors recorded.life now) (stepped : step recorded label = some after) :
    Continues recorded after now ∨ Responds recorded after now := by
  obtain ⟨life, happens, rfl⟩ := Option.map_eq_some_iff.mp stepped
  cases step_happened happens with
  | called request outside isOffered admits =>
      left
      simp only [Mirrors, outside] at mirrors
      simp only [Continues, returned, admits, Mirrors, Option.toList_none, List.append_nil,
        true_and]
      exact ⟨isOffered, mirrors, request, rfl⟩
  | @turnedAway call refusal outside isOffered refused =>
      right
      simp only [Mirrors, outside] at mirrors
      have answers := refusal_reply (tied_begun linked.tied) refused
      rw [mirrors] at answers
      refine ⟨call, _, true, _, ?_, answers, ?_⟩
      · simp only [returned, refused, Option.toList_some]
      · exact resting_mirrors (afterCall_rests call) mirrors
  | entered call enters =>
      left
      refine ⟨List.append_nil _, ?_⟩
      exact enter_mirrors linked enters mirrors
  | worked next isInternal works =>
      left
      refine ⟨List.append_nil _, ?_⟩
      exact work_mirrors linked isInternal (step_moved works) mirrors
  | resumed call next waits resumes => exact resume_mirrors linked waits resumes mirrors
  | joined call joins exited =>
      right
      simp only [Mirrors, joins] at mirrors
      obtain ⟨stops, rfl⟩ := mirrors
      refine ⟨call, .stopped, true, .ended, ?_, ?_, ?_⟩
      · simp only [returned, joins, Option.toList_some]
      · cases call <;> cases stops <;> rfl
      · exact resting_mirrors (afterCall_rests call) rfl
  | freed frees =>
      left
      refine ⟨List.append_nil _, ?_⟩
      simp only [Mirrors, frees] at mirrors ⊢
      exact mirrors

end Simulation

section Results

/-- What has come back is what the object gives back, and the client's next call finds the object
in the state that follows. -/
structure Atomic (recorded : Recorded) : Prop where
  plays : ∃ now, Plays recorded.history now ∧
    (recorded.life.client = .outside → lifespan recorded.life.slot.status = now)
  started : recorded.history.countP starts ≤ 1
  stopped : recorded.history.countP ends ≤ recorded.history.countP starts

theorem created_mirrors (role : Role) : Mirrors (Lifecycle.created role) .configuring :=
  resting_mirrors rfl rfl

theorem calls_atomic (role : Role) (recorded : Recorded)
    (run : Run step (.created role) recorded) : Atomic recorded := by
  obtain ⟨_, now, plays, mirrors⟩ := run.invariant
    (fun recorded => Linked recorded.life ∧
      ∃ now, Plays recorded.history now ∧ Mirrors recorded.life now)
    (fun before label after held _ stepped => by
      obtain ⟨linked, now, plays, mirrors⟩ := held
      obtain ⟨life, happens, same⟩ := Option.map_eq_some_iff.mp stepped
      refine ⟨same ▸ step_linked linked happens, ?_⟩
      rcases step_mirrors linked mirrors stepped with ⟨history, still⟩ |
        ⟨call, answer, succeeds, next, history, answers, later⟩
      · exact ⟨now, history ▸ plays, still⟩
      · exact ⟨next, history ▸ .answered plays succeeds answers, later⟩)
    ⟨created_linked role, .configuring, .created, created_mirrors role⟩
  have counted := plays_counted plays
  refine ⟨⟨now, plays, ?_⟩, ?_, ?_⟩
  · intro outside
    simpa only [Mirrors, outside] using mirrors
  · cases now <;> simp only [Counted] at counted <;> omega
  · cases now <;> simp only [Counted] at counted <;> omega

/-- A service is started, creates an object and is stopped; the next creation is refused. -/
theorem calls_atomic_stopped : ∃ recorded, Run step (.created .service) recorded ∧
    recorded.history =
      [(.start, .code asockSuccess), (.createAsock ⟨8, 16, 24, 32⟩, .code asockSuccess),
        (.stop, .stopped), (.createAsock ⟨8, 16, 24, 32⟩, .refused .null)] ∧
    Atomic recorded := by
  obtain ⟨recorded, run, tested⟩ := replayed step (fun _ _ => True) (.created .service)
    (configuredCall .start 0 true ++
      [.call (.createAsock ⟨8, 16, 24, 32⟩), .enter, .slot .fetch, .slot (.process true),
        .slot (.answer (some 1)), .resume 1] ++ stopCall 2 ++
      [.call (.createAsock ⟨8, 16, 24, 32⟩)])
    (fun recorded => recorded.history =
      [(.start, .code asockSuccess), (.createAsock ⟨8, 16, 24, 32⟩, .code asockSuccess),
        (.stop, .stopped), (.createAsock ⟨8, 16, 24, 32⟩, .refused .null)])
    (by decide +kernel)
  exact ⟨recorded, run, of_decide_eq_true tested, calls_atomic .service recorded run⟩

end Results

end Libasock.AtomicCalls
