import Libasock.DirectiveSlot
import Mathlib.Data.List.Range

/-!
The rendezvous while one call of `asock_send_directive` follows the other. A call
then goes through four stages, from the filled slot to the reply, and in none of
them do the caller and the worker wait for each other. Two calls at a time are
one too many for the slot.
-/

namespace Libasock.SerialDirectives
open GuardedRuns ReturnCodes DirectiveSlot

/-- The directives that the public functions send to a worker. -/
def Role.directives : Role → List DirectiveType
  | .server => [.directBind, .directStart, .directStop]
  | .service => [.directStart, .directStop, .directCreateAsock]

def Label.request : Label → Option Request
  | .send request => some request
  | _ => none

/-- No call begins while another one is under way, and the public functions are the callers. -/
def Serialised (slot : Rendezvous) (label : Label) : Prop :=
  ∀ request ∈ Label.request label, slot.calls = [] ∧ request.type ∈ Role.directives slot.role

instance (slot : Rendezvous) (label : Label) : Decidable (Serialised slot label) :=
  inferInstanceAs (Decidable (∀ request ∈ Label.request label,
    slot.calls = [] ∧ request.type ∈ Role.directives slot.role))

variable {slot after : Rendezvous} {label : Label}

section Stages

/-- The worker has nothing in hand. -/
def roams : WorkerPc → Bool
  | .checking | .asleep | .fetching .running | .executing .running .directNone _ | .exited => true
  | _ => false

/-- The worker is up, and what it has in hand is the directive in the slot. -/
def seeks (type : DirectiveType) (ticket : Nat) : WorkerPc → Bool
  | .checking | .fetching _ | .executing .running .directNone _ | .exited => true
  | .executing _ read number => read = type ∧ number = ticket
  | _ => false

/-- The work was done for the directive's own type and, where it reads them, its own arguments. -/
def Own (slot : Rendezvous) (execution : Execution) : Prop :=
  ∃ request, slot.sent[execution.ticket]? = some request ∧ execution.type = request.type ∧
    ∀ args ∈ execution.args, args = request.args

/-- The first `done` directives are executed, each once, and the first `back` answered. -/
structure History (slot : Rendezvous) (done back : Nat) : Prop where
  tickets : slot.executed.map (fun execution => execution.ticket) = List.range done
  own : ∀ execution ∈ slot.executed, Own slot execution
  replies : slot.returned =
    (slot.executed.take back).map fun execution => (execution.ticket, execution.result)

/-- The result of the last execution. -/
def Computed (slot : Rendezvous) (ticket : Nat) (result : AsockReturnCode) : Prop :=
  result ≠ asockUndefinedCode ∧ ∃ execution, slot.executed[ticket]? = some execution ∧
    execution.ticket = ticket ∧ execution.result = result

inductive Stage (slot : Rendezvous) : Prop where
  | idle (calls : slot.calls = []) (empty : slot.direct.mDirectType = .directNone)
      (worker : roams slot.worker = true) (history : History slot slot.sent.length slot.sent.length)
  | pending (ticket : Nat) (asleep : Bool) (request : Request)
      (calls : slot.calls = [⟨ticket, asleep⟩]) (count : slot.sent.length = ticket + 1)
      (sent : slot.sent[ticket]? = some request)
      (direct : slot.direct = ⟨request.type, asockUndefinedCode, request.args⟩)
      (served : request.type ∈ Role.directives slot.role)
      (worker : seeks request.type ticket slot.worker = true) (history : History slot ticket ticket)
  | executed (ticket : Nat) (asleep : Bool) (result : AsockReturnCode) (next : Option Phase)
      (calls : slot.calls = [⟨ticket, asleep⟩]) (count : slot.sent.length = ticket + 1)
      (filled : slot.direct.mDirectType ≠ .directNone)
      (undefined : slot.direct.mDirectResult = asockUndefinedCode)
      (worker : slot.worker = .answering result next) (computed : Computed slot ticket result)
      (history : History slot (ticket + 1) ticket)
  | answered (ticket : Nat) (result : AsockReturnCode) (calls : slot.calls = [⟨ticket, false⟩])
      (count : slot.sent.length = ticket + 1) (empty : slot.direct.mDirectType = .directNone)
      (given : slot.direct.mDirectResult = result) (worker : roams slot.worker = true)
      (computed : Computed slot ticket result) (history : History slot (ticket + 1) ticket)

end Stages

section Steps

/-- Every directive of the public functions is answered, in either loop. -/
theorem verdict_answers {role : Role} {type : DirectiveType} (phase : Phase)
    (served : type ∈ Role.directives role) (outcome : Bool) :
    ∃ status reads result next, verdict role phase type outcome =
      .answers status reads result next ∧ result ≠ asockUndefinedCode := by
  cases role <;> cases phase <;> cases type <;> simp [Role.directives] at served <;>
    cases outcome <;> exact ⟨_, _, _, _, rfl, by decide⟩

theorem verdict_none (role : Role) (outcome : Bool) :
    verdict role .running .directNone outcome = .passes := by
  cases role <;> rfl

theorem served_filled {role : Role} {type : DirectiveType} (served : type ∈ Role.directives role) :
    type ≠ .directNone := by
  rintro rfl
  cases role <;> simp [Role.directives] at served

/-- Everything one step can do. -/
inductive Moved (slot : Rendezvous) : Label → Rendezvous → Prop where
  | sent (request : Request) : Moved slot (.send request) (send slot request)
  | woken {ticket : Nat} (waits : ⟨ticket, true⟩ ∈ slot.calls) :
      Moved slot (.wake ticket) { slot with calls := setAsleep slot.calls ticket false }
  | resumed {ticket : Nat} (awake : ⟨ticket, false⟩ ∈ slot.calls) :
      Moved slot (.resume ticket) (resume slot ticket)
  | roused (worker : slot.worker = .asleep) :
      Moved slot .wakeWorker { slot with worker := .checking }
  | waited (worker : slot.worker = .checking) (empty : slot.direct.mDirectType = .directNone) :
      Moved slot .check { slot with worker := .asleep }
  | noticed (worker : slot.worker = .checking) (filled : slot.direct.mDirectType ≠ .directNone) :
      Moved slot .check { slot with worker := .fetching .configuring }
  | fetched (phase : Phase) (worker : slot.worker = .fetching phase) :
      Moved slot .fetch { slot with
        worker := .executing phase slot.direct.mDirectType (slot.sent.length - 1) }
  | processed {outcome : Bool} (phase : Phase) (type : DirectiveType) (ticket : Nat)
      (worker : slot.worker = .executing phase type ticket) :
      Moved slot (.process outcome) (process slot phase type ticket outcome)
  | answered {woken : Option Nat} (result : AsockReturnCode) (next : Option Phase)
      (worker : slot.worker = .answering result next) (signalled : chosen slot woken = true) :
      Moved slot (.answer woken) (answer slot result next woken)

theorem step_moved (stepped : step slot label = some after) : Moved slot label after := by
  unfold step at stepped
  cases label with
  | send request =>
      cases stepped
      exact .sent request
  | wake ticket =>
      simp only at stepped
      split at stepped
      · rename_i waits
        cases stepped
        exact .woken waits
      · cases stepped
  | resume ticket =>
      simp only at stepped
      split at stepped
      · rename_i awake
        cases stepped
        exact .resumed awake
      · cases stepped
  | wakeWorker =>
      simp only at stepped
      split at stepped
      · rename_i worker
        cases stepped
        exact .roused worker
      · cases stepped
  | check =>
      simp only at stepped
      split at stepped
      · rename_i worker
        split at stepped
        · rename_i empty
          cases stepped
          exact .waited worker empty
        · rename_i filled
          cases stepped
          exact .noticed worker filled
      · cases stepped
  | fetch =>
      simp only at stepped
      split at stepped
      · rename_i phase worker
        cases stepped
        exact .fetched phase worker
      · cases stepped
  | process outcome =>
      simp only at stepped
      split at stepped
      · rename_i phase type ticket worker
        cases stepped
        exact .processed phase type ticket worker
      · cases stepped
  | answer woken =>
      simp only at stepped
      split at stepped
      · rename_i result next worker
        split at stepped
        · rename_i signalled
          cases stepped
          exact .answered result next worker signalled
        · cases stepped
      · cases stepped

/-- The worker roams on while the slot is empty. -/
theorem roams_moved (worker : roams slot.worker = true)
    (empty : slot.direct.mDirectType = .directNone) (moved : Moved slot label after) :
    (∃ request, label = .send request) ∨ (∃ ticket, label = .wake ticket) ∨
      (∃ ticket, label = .resume ticket) ∨
      ∃ pc, roams pc = true ∧ after = { slot with worker := pc } := by
  cases moved with
  | sent request => exact .inl ⟨request, rfl⟩
  | woken => exact .inr (.inl ⟨_, rfl⟩)
  | resumed => exact .inr (.inr (.inl ⟨_, rfl⟩))
  | roused pc => exact .inr (.inr (.inr ⟨.checking, rfl, rfl⟩))
  | waited pc => exact .inr (.inr (.inr ⟨.asleep, rfl, rfl⟩))
  | noticed pc filled => exact absurd empty filled
  | fetched phase pc =>
      rw [pc] at worker
      cases phase with
      | configuring => cases worker
      | running => exact .inr (.inr (.inr ⟨_, by rw [empty]; rfl, rfl⟩))
  | @processed outcome phase type ticket pc =>
      rw [pc] at worker
      cases phase with
      | configuring => cases worker
      | running =>
          have nothing : type = .directNone := by
            cases type <;> simp_all [roams]
          subst nothing
          refine .inr (.inr (.inr ⟨.fetching .running, rfl, ?_⟩))
          simp only [process, verdict_none, Phase.entry]
  | answered result next pc =>
      rw [pc] at worker
      cases worker

theorem history_same {done back : Nat} (history : History slot done back)
    (executed : after.executed = slot.executed) (sent : after.sent = slot.sent)
    (returned : after.returned = slot.returned) : History after done back := by
  refine ⟨by rw [executed]; exact history.tickets, ?_, by rw [executed, returned]; exact history.replies⟩
  intro execution member
  rw [executed] at member
  simpa only [Own, sent] using history.own execution member

/-- Nothing in the records is about a call that has not begun. -/
theorem history_sent {done back : Nat} (request : Request) (history : History slot done back) :
    History (send slot request) done back := by
  refine ⟨history.tickets, ?_, history.replies⟩
  intro execution member
  obtain ⟨own, known, same, args⟩ := history.own execution member
  refine ⟨own, ?_, same, args⟩
  have inside := (List.getElem?_eq_some_iff.mp known).1
  simp only [send]
  rw [List.getElem?_append_left inside]
  exact known

theorem sleeper_changed (ticket : Nat) (before now : Bool) :
    setAsleep [⟨ticket, before⟩] ticket now = [⟨ticket, now⟩] := by
  simp [setAsleep]

theorem idle_moved (calls : slot.calls = []) (empty : slot.direct.mDirectType = .directNone)
    (worker : roams slot.worker = true)
    (history : History slot slot.sent.length slot.sent.length)
    (serial : Serialised slot label) (moved : Moved slot label after) : Stage after := by
  obtain ⟨request, rfl⟩ | ⟨ticket, rfl⟩ | ⟨ticket, rfl⟩ | ⟨pc, roaming, rfl⟩ :=
    roams_moved worker empty moved
  · cases moved
    have up : seeks request.type slot.sent.length (send slot request).worker = true := by
      simp only [send]
      split
      · rfl
      · rename_i awake
        cases pc : slot.worker with
        | checking | exited => rfl
        | asleep => exact absurd pc awake
        | fetching phase => rfl
        | executing phase type ticket =>
            rw [pc] at worker
            cases phase <;> cases type <;> simp_all [roams, seeks]
        | answering result next | crashed => simp [pc, roams] at worker
    refine .pending slot.sent.length true request ?_ ?_ ?_ rfl (serial request rfl).2 up
      (history_sent request history)
    · simp [send, calls]
    · simp [send]
    · simp [send]
  · cases moved with
    | woken waits => simp [calls] at waits
  · cases moved with
    | resumed awake => simp [calls] at awake
  · exact .idle calls empty roaming (history_same history rfl rfl rfl)

theorem answered_moved {ticket : Nat} {result : AsockReturnCode}
    (calls : slot.calls = [⟨ticket, false⟩]) (count : slot.sent.length = ticket + 1)
    (empty : slot.direct.mDirectType = .directNone) (given : slot.direct.mDirectResult = result)
    (worker : roams slot.worker = true) (computed : Computed slot ticket result)
    (history : History slot (ticket + 1) ticket) (serial : Serialised slot label)
    (moved : Moved slot label after) : Stage after := by
  obtain ⟨request, rfl⟩ | ⟨other, rfl⟩ | ⟨other, rfl⟩ | ⟨pc, roaming, rfl⟩ :=
    roams_moved worker empty moved
  · have free := (serial request rfl).1
    rw [calls] at free
    cases free
  · cases moved with
    | woken waits => simp [calls] at waits
  · cases moved with
    | resumed awake =>
        obtain ⟨defined, execution, here, sameTicket, sameResult⟩ := computed
        have own : other = ticket := by simpa [calls] using awake
        subst own
        have returns : resume slot other = { slot with
            direct := { slot.direct with
              mDirectResult := asockUndefinedCode, mDirectType := .directNone }
            calls := []
            returned := slot.returned ++ [(other, result)] } := by
          rw [resume, if_neg (by rw [given]; exact defined), given, calls]
          simp
        rw [returns]
        refine .idle rfl rfl worker ⟨?_, history.own, ?_⟩
        · simp only [count]
          exact history.tickets
        · simp only [count]
          rw [List.take_add_one, here, history.replies]
          simp [sameTicket, sameResult]
  · exact .answered ticket result calls count empty given roaming computed
      (history_same history rfl rfl rfl)

theorem seeks_executing (phase : Phase) (type : DirectiveType) (ticket : Nat) :
    seeks type ticket (.executing phase type ticket) = true := by
  cases phase <;> cases type <;> simp [seeks]

/-- The directive in the slot is executed. -/
theorem executed_moved {ticket : Nat} {asleep : Bool} {request : Request} {phase : Phase}
    {outcome : Bool} (calls : slot.calls = [⟨ticket, asleep⟩])
    (count : slot.sent.length = ticket + 1) (sent : slot.sent[ticket]? = some request)
    (direct : slot.direct = ⟨request.type, asockUndefinedCode, request.args⟩)
    (served : request.type ∈ Role.directives slot.role) (history : History slot ticket ticket) :
    Stage (process slot phase request.type ticket outcome) := by
  obtain ⟨status, reads, result, next, answers, defined⟩ := verdict_answers phase served outcome
  have length : slot.executed.length = ticket := by
    have tickets := congrArg List.length history.tickets
    simpa using tickets
  simp only [process, answers]
  refine .executed ticket asleep result next calls count ?_ ?_ rfl ⟨defined, ?_⟩ ⟨?_, ?_, ?_⟩
  · simp only [direct]
    exact served_filled served
  · simp only [direct]
  · refine ⟨⟨ticket, request.type, if reads then some slot.direct.mArgs else none, result⟩, ?_, rfl,
      rfl⟩
    simp [← length]
  · simp only [List.map_append, history.tickets]
    exact List.range_succ.symm
  · intro execution member
    rcases List.mem_append.mp member with before | now
    · exact history.own execution before
    · rw [List.mem_singleton] at now
      subst now
      refine ⟨request, sent, rfl, ?_⟩
      intro args read
      cases reads <;> simp_all
  · simp only
    rw [List.take_append_of_le_length (Nat.le_of_eq length.symm)]
    exact history.replies

/-- Without an answer the one call goes back to sleep. -/
theorem resume_sleeps {ticket : Nat} (calls : slot.calls = [⟨ticket, false⟩])
    (undefined : slot.direct.mDirectResult = asockUndefinedCode) :
    resume slot ticket = { slot with calls := [⟨ticket, true⟩] } := by
  rw [resume, if_pos undefined, calls, sleeper_changed]

theorem pending_moved {ticket : Nat} {asleep : Bool} {request : Request}
    (calls : slot.calls = [⟨ticket, asleep⟩]) (count : slot.sent.length = ticket + 1)
    (sent : slot.sent[ticket]? = some request)
    (direct : slot.direct = ⟨request.type, asockUndefinedCode, request.args⟩)
    (served : request.type ∈ Role.directives slot.role)
    (worker : seeks request.type ticket slot.worker = true) (history : History slot ticket ticket)
    (serial : Serialised slot label) (moved : Moved slot label after) : Stage after := by
  cases moved with
  | sent other =>
      have free := (serial other rfl).1
      rw [calls] at free
      cases free
  | @woken other waits =>
      obtain ⟨rfl, rfl⟩ : other = ticket ∧ true = asleep := by simpa [calls] using waits
      refine .pending other false request ?_ count sent direct served worker
        (history_same history rfl rfl rfl)
      simp only [calls, sleeper_changed]
  | @resumed other awake =>
      obtain ⟨rfl, rfl⟩ : other = ticket ∧ false = asleep := by simpa [calls] using awake
      rw [resume_sleeps calls (by rw [direct])]
      exact .pending other true request rfl count sent direct served worker
        (history_same history rfl rfl rfl)
  | roused pc => simp [pc, seeks] at worker
  | waited pc empty =>
      rw [direct] at empty
      exact absurd empty (served_filled served)
  | noticed pc filled =>
      exact .pending ticket asleep request calls count sent direct served rfl
        (history_same history rfl rfl rfl)
  | fetched phase pc =>
      refine .pending ticket asleep request calls count sent direct served ?_
        (history_same history rfl rfl rfl)
      simp only [direct, count, Nat.add_sub_cancel]
      exact seeks_executing phase request.type ticket
  | @processed outcome phase type number pc =>
      by_cases stale : phase = .running ∧ type = .directNone
      · obtain ⟨rfl, rfl⟩ := stale
        have passes : process slot .running .directNone number outcome =
            { slot with worker := .fetching .running } := by
          simp only [process, verdict_none, Phase.entry]
        rw [passes]
        exact .pending ticket asleep request calls count sent direct served rfl
          (history_same history rfl rfl rfl)
      · have own : type = request.type ∧ number = ticket := by
          rw [pc] at worker
          cases phase <;> cases type <;> simp_all [seeks]
        obtain ⟨rfl, rfl⟩ := own
        exact executed_moved calls count sent direct served history
  | answered result next pc => simp [pc, seeks] at worker

theorem entry_roams (next : Option Phase) :
    roams (match next with
      | some phase => phase.entry
      | none => .exited) = true := by
  cases next with
  | none => rfl
  | some phase => cases phase <;> rfl

/-- The signal cannot miss the one call there is. -/
theorem signal_wakes {ticket : Nat} {asleep : Bool} {woken : Option Nat}
    (result : AsockReturnCode) (next : Option Phase) (calls : slot.calls = [⟨ticket, asleep⟩])
    (signalled : chosen slot woken = true) :
    (answer slot result next woken).calls = [⟨ticket, false⟩] := by
  cases woken with
  | none =>
      obtain rfl : asleep = false := by simpa [chosen, calls] using signalled
      exact calls
  | some other =>
      obtain ⟨rfl, rfl⟩ : other = ticket ∧ true = asleep := by
        simpa [chosen, calls] using signalled
      simp only [answer, calls, sleeper_changed]

theorem executed_answered {ticket : Nat} {asleep : Bool} {result : AsockReturnCode}
    {next : Option Phase} (calls : slot.calls = [⟨ticket, asleep⟩])
    (count : slot.sent.length = ticket + 1) (filled : slot.direct.mDirectType ≠ .directNone)
    (undefined : slot.direct.mDirectResult = asockUndefinedCode)
    (worker : slot.worker = .answering result next) (computed : Computed slot ticket result)
    (history : History slot (ticket + 1) ticket) (serial : Serialised slot label)
    (moved : Moved slot label after) : Stage after := by
  cases moved with
  | sent other =>
      have free := (serial other rfl).1
      rw [calls] at free
      cases free
  | @woken other waits =>
      obtain ⟨rfl, rfl⟩ : other = ticket ∧ true = asleep := by simpa [calls] using waits
      refine .executed other false result next ?_ count filled undefined worker computed
        (history_same history rfl rfl rfl)
      simp only [calls, sleeper_changed]
  | @resumed other awake =>
      obtain ⟨rfl, rfl⟩ : other = ticket ∧ false = asleep := by simpa [calls] using awake
      rw [resume_sleeps calls undefined]
      exact .executed other true result next rfl count filled undefined worker computed
        (history_same history rfl rfl rfl)
  | roused pc | waited pc | noticed pc | fetched phase pc | processed phase type number pc =>
      rw [worker] at pc
      cases pc
  | @answered woken given after pc signalled =>
      rw [worker] at pc
      cases pc
      have awake := signal_wakes result next calls signalled
      exact .answered ticket result awake count rfl rfl (entry_roams next) computed
        (history_same history rfl rfl rfl)

/-- The stages follow each other, whatever the interleaving. -/
theorem step_stage (stage : Stage slot) (serial : Serialised slot label)
    (stepped : step slot label = some after) : Stage after := by
  have moved := step_moved stepped
  cases stage with
  | idle calls empty worker history => exact idle_moved calls empty worker history serial moved
  | pending ticket asleep request calls count sent direct served worker history =>
      exact pending_moved calls count sent direct served worker history serial moved
  | executed ticket asleep result next calls count filled undefined worker computed history =>
      exact executed_answered calls count filled undefined worker computed history serial moved
  | answered ticket result calls count empty given worker computed history =>
      exact answered_moved calls count empty given worker computed history serial moved

theorem configured_stage (role : Role) : Stage (.configured role) :=
  .idle rfl rfl rfl ⟨rfl, (fun _ member => by cases member), rfl⟩

end Steps

section Results

/-- The directive of a call is still in the slot. -/
def InSlot (slot : Rendezvous) (ticket : Nat) : Prop :=
  slot.direct.mDirectType ≠ .directNone ∧ ticket + 1 = slot.sent.length

/-- No directive is executed twice or with another one's arguments, every directive is executed or
still in the slot with the worker awake, every reply is that of the caller's own directive, and a
call that sleeps has its directive still in the slot. -/
structure Recorded (slot : Rendezvous) : Prop where
  once : (slot.executed.map fun execution => execution.ticket).Nodup
  own : ∀ execution ∈ slot.executed, Own slot execution
  kept : ∀ ticket < slot.sent.length,
    InSlot slot ticket ∨ ∃ execution ∈ slot.executed, execution.ticket = ticket
  attended : slot.direct.mDirectType ≠ .directNone →
    slot.worker ≠ .asleep ∧ slot.worker ≠ .crashed
  replied : ∀ reply ∈ slot.returned, ∃ execution ∈ slot.executed,
    execution.ticket = reply.1 ∧ execution.result = reply.2
  single : (slot.returned.map fun reply => reply.1).Nodup
  unblocked : ∀ call ∈ slot.calls, InSlot slot call.ticket ∨
    (call.asleep = false ∧ slot.direct.mDirectResult ≠ asockUndefinedCode)

theorem history_once {done back : Nat} (history : History slot done back) :
    (slot.executed.map fun execution => execution.ticket).Nodup := by
  rw [history.tickets]
  exact List.nodup_range

theorem history_executed {done back ticket : Nat} (history : History slot done back)
    (early : ticket < done) : ∃ execution ∈ slot.executed, execution.ticket = ticket := by
  have member : ticket ∈ slot.executed.map fun execution => execution.ticket := by
    rw [history.tickets]
    exact List.mem_range.mpr early
  exact List.mem_map.mp member

theorem history_replied {done back : Nat} (history : History slot done back) :
    (∀ reply ∈ slot.returned, ∃ execution ∈ slot.executed,
      execution.ticket = reply.1 ∧ execution.result = reply.2) ∧
    (slot.returned.map fun reply => reply.1).Nodup := by
  rw [history.replies]
  constructor
  · intro reply member
    obtain ⟨execution, taken, rfl⟩ := List.mem_map.mp member
    exact ⟨execution, List.mem_of_mem_take taken, rfl, rfl⟩
  · have front : ((slot.executed.take back).map fun execution => execution.ticket).Sublist
        (slot.executed.map fun execution => execution.ticket) :=
      (List.take_sublist back slot.executed).map _
    rw [List.map_map]
    exact (history_once history).sublist front

theorem stage_recorded (stage : Stage slot) : Recorded slot := by
  cases stage with
  | idle calls empty worker history =>
      obtain ⟨replied, single⟩ := history_replied history
      refine ⟨history_once history, history.own, ?_, absurd empty, replied, single, ?_⟩
      · exact fun ticket early => .inr (history_executed history early)
      · intro call member
        rw [calls] at member
        cases member
  | pending ticket asleep request calls count sent direct served worker history =>
      obtain ⟨replied, single⟩ := history_replied history
      have filled : slot.direct.mDirectType ≠ .directNone := by
        rw [direct]
        exact served_filled served
      refine ⟨history_once history, history.own, ?_, fun _ => ?_, replied, single, ?_⟩
      · intro other early
        by_cases last : other = ticket
        · subst last
          exact .inl ⟨filled, count.symm⟩
        · exact .inr (history_executed history (by omega))
      · constructor <;>
          (intro pc
           rw [pc] at worker
           cases worker)
      · intro call member
        rw [calls, List.mem_singleton] at member
        subst member
        exact .inl ⟨filled, count.symm⟩
  | executed ticket asleep result next calls count filled undefined worker computed history =>
      obtain ⟨replied, single⟩ := history_replied history
      refine ⟨history_once history, history.own, ?_, fun _ => ?_, replied, single, ?_⟩
      · exact fun other early => .inr (history_executed history (count ▸ early))
      · rw [worker]
        constructor <;>
          (intro impossible
           cases impossible)
      · intro call member
        rw [calls, List.mem_singleton] at member
        subst member
        exact .inl ⟨filled, count.symm⟩
  | answered ticket result calls count empty given worker computed history =>
      obtain ⟨replied, single⟩ := history_replied history
      refine ⟨history_once history, history.own, ?_, absurd empty, replied, single, ?_⟩
      · exact fun other early => .inr (history_executed history (count ▸ early))
      · intro call member
        rw [calls, List.mem_singleton] at member
        subst member
        exact .inr ⟨rfl, by rw [given]; exact computed.1⟩

theorem serial_stage {role : Role} (run : GuardedRun step Serialised (.configured role) slot) :
    Stage slot :=
  run.invariant Stage (fun _ _ _ stage serial stepped => step_stage stage serial stepped)
    (configured_stage role)

/-- Caller and worker do not sleep at once, no directive is executed twice, and the last reset of
a call, which clears the type, meets an empty slot. -/
structure NeverStuck (slot : Rendezvous) : Prop where
  awake : ¬ ((∃ call ∈ slot.calls, call.asleep = true) ∧ slot.worker = .asleep)
  once : (slot.executed.map fun execution => execution.ticket).Nodup
  reset : ∀ call ∈ slot.calls, call.asleep = false →
    slot.direct.mDirectResult ≠ asockUndefinedCode → slot.direct.mDirectType = .directNone

theorem stage_alive (stage : Stage slot) : NeverStuck slot := by
  have recorded := stage_recorded stage
  cases stage with
  | idle calls empty worker history =>
      refine ⟨?_, recorded.once, fun _ _ _ _ => empty⟩
      rintro ⟨⟨call, member, _⟩, _⟩
      rw [calls] at member
      cases member
  | pending ticket asleep request calls count sent direct known worker history =>
      refine ⟨fun both => ?_, recorded.once, fun _ _ _ defined => ?_⟩
      · exact (recorded.attended (by rw [direct]; exact served_filled known)).1 both.2
      · exact absurd (by rw [direct]) defined
  | executed ticket asleep result next calls count filled undefined worker computed history =>
      exact ⟨fun both => (recorded.attended filled).1 both.2, recorded.once,
        fun _ _ _ defined => absurd undefined defined⟩
  | answered ticket result calls count empty given worker computed history =>
      refine ⟨?_, recorded.once, fun _ _ _ _ => empty⟩
      rintro ⟨⟨call, member, sleeps⟩, _⟩
      rw [calls, List.mem_singleton] at member
      subst member
      cases sleeps

theorem serial_rendezvous_alive (role : Role) (slot : Rendezvous)
    (run : GuardedRun step Serialised (.configured role) slot) : NeverStuck slot :=
  stage_alive (serial_stage run)

theorem early_signal_alive : ∃ slot, Run step (.configured .server) slot ∧
    slot.worker = .asleep ∧ slot.calls = [⟨0, false⟩] ∧ NeverStuck slot := by
  obtain ⟨slot, run, tested⟩ := replayed step Serialised (.configured .server)
    [.send ⟨.directBind, ⟨8, 16, 0, 0⟩⟩, .wake 0, .resume 0, .check, .fetch, .process true,
      .answer (some 0), .check]
    (fun slot => slot.worker = .asleep ∧ slot.calls = [⟨0, false⟩]) (by decide +kernel)
  obtain ⟨sleeps, woken⟩ := of_decide_eq_true tested
  exact ⟨slot, run.weaken fun _ _ _ => trivial, sleeps, woken,
    serial_rendezvous_alive .server slot run⟩

end Results

end Libasock.SerialDirectives
