import Libasock.ServiceStates

/-!
One event of a service, call by call. `eventCalls` is the body of the event loop
of `asock_service_update_state` as the calls it makes on the reported number:
the lookup and `getsockopt` of the `EPOLLOUT` part, the close of `EPOLLERR` and
`EPOLLHUP`, and the read loop. `Handling` follows the worker of `ServiceWorker`
through one event while the users take their steps; what it calls is `eventCalls`.
-/

namespace Libasock.EventHandlers
open GuardedRuns WorkerWorld ServiceWorker

inductive Call where
  | lookup | getsockopt | closeConnection | read
  deriving DecidableEq, Repr

/-- How the read loop ends: `EAGAIN`, another error, or the end of the file. -/
inductive ReadEnd where
  | again | failed | ended
  deriving DecidableEq

/-- The read loop in which that many reads bring data before the last one. -/
def readCalls : Nat → ReadEnd → List Call
  | 0, .again => [.read]
  | 0, .failed | 0, .ended => [.read, .closeConnection]
  | chunks + 1, ending => .read :: .lookup :: readCalls chunks ending

/-- What follows the `EPOLLOUT` part. -/
def laterCalls (mask : EventMask) (chunks : Nat) (ending : ReadEnd) : List Call :=
  if mask.epollerr ∨ mask.epollhup then [.closeConnection]
  else if mask.epollin ∨ mask.epollpri then readCalls chunks ending
  else []

/-- Only the branch with an error in `SO_ERROR` leaves the turn after its close. -/
def eventCalls (service : Service) (number : Nat) (mask : EventMask) (answer : SockError)
    (chunks : Nat) (ending : ReadEnd) : List Call :=
  if mask.epollout then
    match service.world.conBySockDesc number with
    | none => .lookup :: laterCalls mask chunks ending
    | some _ =>
        match answer with
        | .unreadable =>
            .lookup :: .getsockopt :: .closeConnection :: laterCalls mask chunks ending
        | .noError => .lookup :: .getsockopt :: laterCalls mask chunks ending
        | .error => [.lookup, .getsockopt, .closeConnection]
  else laterCalls mask chunks ending

/-- Nothing is called on the number once it has been closed. -/
def LetsGo (calls : List Call) : Prop :=
  ∀ front back, calls = front ++ .closeConnection :: back → back = []

section Traces

variable {call : Call} {rest : List Call}

theorem letsGo_nil : LetsGo [] := by
  intro front back same
  simp at same

theorem letsGo_close : LetsGo (.closeConnection :: rest) ↔ rest = [] := by
  constructor
  · intro goes
    exact goes [] rest rfl
  · rintro rfl front back same
    cases front with
    | nil => simpa using same.symm
    | cons _ _ => simp at same

theorem letsGo_other (other : call ≠ .closeConnection) : LetsGo (call :: rest) ↔ LetsGo rest := by
  constructor
  · intro goes front back same
    exact goes (call :: front) back (by rw [same, List.cons_append])
  · intro goes front back same
    cases front with
    | nil => exact absurd (List.cons.inj same).1 other
    | cons _ front => exact goes front back (List.cons.inj same).2

theorem readCalls_go (chunks : Nat) (ending : ReadEnd) : LetsGo (readCalls chunks ending) := by
  induction chunks with
  | zero =>
      cases ending with
      | again => exact (letsGo_other (by decide)).mpr letsGo_nil
      | failed | ended => exact (letsGo_other (by decide)).mpr (letsGo_close.mpr rfl)
  | succ chunks ih => exact (letsGo_other (by decide)).mpr ((letsGo_other (by decide)).mpr ih)

theorem readCalls_some (chunks : Nat) (ending : ReadEnd) : readCalls chunks ending ≠ [] := by
  cases chunks with
  | zero => cases ending <;> simp [readCalls]
  | succ chunks => simp [readCalls]

theorem laterCalls_go (mask : EventMask) (chunks : Nat) (ending : ReadEnd) :
    LetsGo (laterCalls mask chunks ending) := by
  unfold laterCalls
  split
  · exact letsGo_close.mpr rfl
  · split
    · exact readCalls_go chunks ending
    · exact letsGo_nil

theorem laterCalls_none (mask : EventMask) (chunks : Nat) (ending : ReadEnd) :
    laterCalls mask chunks ending = [] ↔ ¬ ((mask.epollerr ∨ mask.epollhup) ∨
      (mask.epollin ∨ mask.epollpri)) := by
  unfold laterCalls
  by_cases hung : mask.epollerr ∨ mask.epollhup
  · simp [hung]
  · by_cases readable : mask.epollin ∨ mask.epollpri
    · simp [hung, readable, readCalls_some]
    · simp [hung, readable]

end Traces

section Worker

/-- The calls on the reported number in one step of the worker. -/
def made (service : Service) (label : Label) : List Call :=
  match service.pc, label with
  | .writable number _, .sockError answer =>
      match service.world.conBySockDesc number with
      | none => [.lookup]
      | some _ =>
          match answer with
          | .noError => [.lookup, .getsockopt]
          | .unreadable | .error => [.lookup, .getsockopt, .closeConnection]
  | .handling _ mask, .handle =>
      if mask.epollerr ∨ mask.epollhup then [.closeConnection] else []
  | .reading _, .readData _ _ => [.read, .lookup]
  | .reading _, .readAgain => [.read]
  | .reading _, .readFailed | .reading _, .readEnd => [.read, .closeConnection]
  | _, _ => []

/-- The service since it took an event, with the calls the worker has made for it. -/
inductive Handling (number : Nat) (mask : EventMask) (first : Service) :
    List Call → Service → Prop where
  | taken (idle : first.pc = .ready) : Handling number mask first [] (eventStep first number mask)
  | next {calls : List Call} {middle last : Service} (label : Label)
      (before : Handling number mask first calls middle) (busy : middle.pc ≠ .ready)
      (stepped : step middle label = some last) :
      Handling number mask first (calls ++ made middle label) last

variable {number : Nat} {mask : EventMask} {first service after : Service} {label : Label}

/-- What the calls so far leave open, at each program point of the turn. -/
def Progress (number : Nat) (mask : EventMask) (first : Service) (calls : List Call) : Pc → Prop
  | .writable reported bits =>
      reported = number ∧ bits = mask ∧ mask.epollout = true ∧ calls = []
  | .handling reported bits => reported = number ∧ bits = mask ∧
      ∃ looked answer, Handling number mask first [] looked ∧ ∀ chunks ending,
        calls ++ laterCalls mask chunks ending =
          eventCalls looked number mask answer chunks ending
  | .reading reported => reported = number ∧
      ∃ looked answer chunks, Handling number mask first [] looked ∧ ∀ more ending,
        calls ++ readCalls more ending =
          eventCalls looked number mask answer (chunks + more) ending
  | .ready => ∃ looked answer chunks ending, Handling number mask first [] looked ∧
      calls = eventCalls looked number mask answer chunks ending
  | _ => False

theorem made_user (user : label.byUser = true) : made service label = [] := by
  unfold made
  split <;> first | rfl | cases user

theorem taken_progress (idle : first.pc = .ready) :
    Progress number mask first [] (eventStep first number mask).pc := by
  have taken : Handling number mask first [] (eventStep first number mask) := .taken idle
  unfold eventStep at taken ⊢
  split
  · rename_i writable
    exact ⟨rfl, rfl, writable, rfl⟩
  · rename_i unwritable
    refine ⟨rfl, rfl, _, .noError, taken, fun chunks ending => ?_⟩
    rw [eventCalls, if_neg unwritable, List.nil_append]

variable {calls : List Call}

theorem sockError_progress {answer : SockError}
    (handled : Handling number mask first [] service) (out : mask.epollout = true)
    (pc : service.pc = .writable number mask) :
    Progress number mask first ([] ++ made service (.sockError answer))
      (sockErrorStep service number mask answer).pc := by
  have starts : ∀ chunks ending, eventCalls service number mask answer chunks ending =
      match service.world.conBySockDesc number with
      | none => .lookup :: laterCalls mask chunks ending
      | some _ =>
          match answer with
          | .unreadable =>
              .lookup :: .getsockopt :: .closeConnection :: laterCalls mask chunks ending
          | .noError => .lookup :: .getsockopt :: laterCalls mask chunks ending
          | .error => [.lookup, .getsockopt, .closeConnection] := by
    intro chunks ending
    unfold eventCalls
    rw [if_pos out]
  unfold sockErrorStep made
  rw [pc]
  dsimp only
  cases known : service.world.conBySockDesc number with
  | none =>
      rw [known] at starts
      exact ⟨rfl, rfl, service, answer, handled, fun chunks ending => (starts chunks ending).symm⟩
  | some con =>
      rw [known] at starts
      cases answer with
      | unreadable | noError =>
          exact ⟨rfl, rfl, service, _, handled, fun chunks ending => (starts chunks ending).symm⟩
      | error => exact ⟨service, .error, 0, .again, handled, (starts 0 .again).symm⟩

theorem handle_progress (progress : Progress number mask first calls service.pc)
    (pc : service.pc = .handling number mask) :
    Progress number mask first (calls ++ made service .handle)
      (handleStep service number mask).pc := by
  rw [pc] at progress
  obtain ⟨_, _, looked, answer, handled, later⟩ := progress
  unfold handleStep made
  rw [pc]
  dsimp only
  by_cases hung : mask.epollerr ∨ mask.epollhup
  · rw [if_pos hung, if_pos hung]
    refine ⟨looked, answer, 0, .again, handled, ?_⟩
    rw [← later, laterCalls, if_pos hung]
  · rw [if_neg hung, if_neg hung, List.append_nil]
    by_cases readable : mask.epollin ∨ mask.epollpri
    · rw [if_pos readable]
      refine ⟨rfl, looked, answer, 0, handled, fun more ending => ?_⟩
      rw [← later, laterCalls, if_neg hung, if_pos readable, Nat.zero_add]
    · rw [if_neg readable]
      refine ⟨looked, answer, 0, .again, handled, ?_⟩
      rw [← later, laterCalls, if_neg hung, if_neg readable, List.append_nil]

theorem worker_progress (handled : Handling number mask first calls service)
    (progress : Progress number mask first calls service.pc) (busy : service.pc ≠ .ready)
    (worked : workerStep service label = some after) :
    Progress number mask first (calls ++ made service label) after.pc := by
  unfold workerStep at worked
  split at worked
  case h_8 reported bits answer pc =>
    have here := progress
    rw [pc] at here
    obtain ⟨rfl, rfl, out, rfl⟩ := here
    cases worked
    exact sockError_progress handled out pc
  case h_9 reported bits pc =>
    have here := progress
    rw [pc] at here
    obtain ⟨rfl, rfl, _⟩ := here
    cases worked
    exact handle_progress progress pc
  case h_10 reported count answer pc =>
    obtain ⟨world, _, rfl⟩ := Option.map_eq_some_iff.mp worked
    rw [pc] at progress
    obtain ⟨rfl, looked, accepted, chunks, taken, later⟩ := progress
    have calling : made service (.readData count answer) = [.read, .lookup] := by
      unfold made
      rw [pc]
    rw [calling]
    change Progress reported mask first _ service.pc
    rw [pc]
    refine ⟨rfl, looked, accepted, chunks + 1, taken, fun more ending => ?_⟩
    rw [List.append_assoc]
    have next := later (more + 1) ending
    rw [readCalls, ← Nat.add_assoc, Nat.add_right_comm] at next
    exact next
  case h_11 reported pc =>
    cases worked
    rw [pc] at progress
    obtain ⟨rfl, looked, answer, chunks, taken, later⟩ := progress
    have calling : made service .readAgain = [.read] := by
      unfold made
      rw [pc]
    rw [calling]
    exact ⟨looked, answer, chunks, .again, taken, later 0 .again⟩
  case h_12 reported pc =>
    cases worked
    rw [pc] at progress
    obtain ⟨rfl, looked, answer, chunks, taken, later⟩ := progress
    have calling : made service .readFailed = [.read, .closeConnection] := by
      unfold made
      rw [pc]
    rw [calling]
    exact ⟨looked, answer, chunks, .failed, taken, later 0 .failed⟩
  case h_13 reported pc =>
    split at worked
    · cases worked
      rw [pc] at progress
      obtain ⟨rfl, looked, answer, chunks, taken, later⟩ := progress
      have calling : made service .readEnd = [.read, .closeConnection] := by
        unfold made
        rw [pc]
      rw [calling]
      exact ⟨looked, answer, chunks, .ended, taken, later 0 .ended⟩
    · cases worked
  case h_17 => cases worked
  all_goals
    rename_i pc
    first
    | exact absurd pc busy
    | rw [pc] at progress
      cases progress

theorem handling_progress (handled : Handling number mask first calls service) :
    Progress number mask first calls service.pc := by
  induction handled with
  | taken idle => exact taken_progress idle
  | next label before busy stepped ih =>
      rcases step_sides stepped with ⟨user, used⟩ | ⟨_, worked⟩
      · rw [made_user user, List.append_nil, user_pc used]
        exact ih
      · exact worker_progress before ih busy worked

/-- What the worker calls for one event, in any company, is what the source says. -/
theorem handled_calls (handled : Handling number mask first calls service)
    (done : service.pc = .ready) :
    ∃ looked answer chunks ending, Handling number mask first [] looked ∧
      calls = eventCalls looked number mask answer chunks ending := by
  have progress := handling_progress handled
  rw [done] at progress
  exact progress

end Worker

section Results

-- Only the failed `getsockopt` of a registered connection, together with a later bit of the mask,
-- leads on after a close.
theorem event_handler_lets_go (service : Service) (number : Nat) (mask : EventMask)
    (answer : SockError) (chunks : Nat) (ending : ReadEnd) :
    LetsGo (eventCalls service number mask answer chunks ending) ↔
      ¬ (mask.epollout = true ∧ (service.world.conBySockDesc number).isSome = true ∧
        answer = .unreadable ∧
        ((mask.epollerr ∨ mask.epollhup) ∨ (mask.epollin ∨ mask.epollpri))) := by
  have later := laterCalls_go mask chunks ending
  have noLater := laterCalls_none mask chunks ending
  have quiet : ∀ call ∈ [Call.lookup, .getsockopt], call ≠ .closeConnection := by decide
  unfold eventCalls
  by_cases out : mask.epollout = true
  · rw [if_pos out]
    cases known : service.world.conBySockDesc number with
    | none =>
        have goes := (letsGo_other (quiet .lookup (by decide))).mpr later
        exact ⟨fun _ failed => absurd failed.2.1 (by decide), fun _ => goes⟩
    | some con =>
        cases answer with
        | unreadable =>
            have goes : LetsGo (.lookup :: .getsockopt :: .closeConnection ::
                laterCalls mask chunks ending) ↔ laterCalls mask chunks ending = [] := by
              rw [letsGo_other (quiet .lookup (by decide)),
                letsGo_other (quiet .getsockopt (by decide)), letsGo_close]
            simp only [goes, noLater, out, Option.isSome_some, true_and]
        | noError =>
            have goes := (letsGo_other (quiet .lookup (by decide))).mpr
              ((letsGo_other (quiet .getsockopt (by decide))).mpr later)
            exact ⟨fun _ failed => absurd failed.2.2.1 (by decide), fun _ => goes⟩
        | error =>
            have goes : LetsGo [.lookup, .getsockopt, .closeConnection] := by
              rw [letsGo_other (quiet .lookup (by decide)),
                letsGo_other (quiet .getsockopt (by decide)), letsGo_close]
            exact ⟨fun _ failed => absurd failed.2.2.1 (by decide), fun _ => goes⟩
  · rw [if_neg out]
    exact ⟨fun _ failed => absurd failed.1 out, fun _ => later⟩

/-- Replays the labels of one event and collects the calls. -/
def follow (service : Service) (calls : List Call) : List Label → Option (List Call × Service)
  | [] => some (calls, service)
  | label :: rest =>
      if service.pc = .ready then none
      else (step service label).bind fun next => follow next (calls ++ made service label) rest

theorem follow_handling {number : Nat} {mask : EventMask} {first service last : Service}
    {calls more : List Call} {labels : List Label}
    (handled : Handling number mask first calls service)
    (followed : follow service calls labels = some (more, last)) :
    Handling number mask first more last := by
  induction labels generalizing service calls with
  | nil =>
      cases followed
      exact handled
  | cons label rest ih =>
      rw [follow] at followed
      split at followed
      · cases followed
      · rename_i busy
        obtain ⟨next, stepped, later⟩ := Option.bind_eq_some_iff.mp followed
        exact ih (.next label handled busy stepped) later

/-- `EPOLLIN` and `EPOLLOUT` together. -/
def readWrite : EventMask := ⟨true, true, false, false, false⟩

-- `getsockopt` fails, the connection on descriptor 5 is closed, and the number is read and closed.
theorem closed_number_read : ∃ first last calls, Run step (.configured 1) first ∧
    Handling 5 readWrite first calls last ∧ last.pc = .ready ∧
    calls = [.lookup, .getsockopt, .closeConnection, .read, .closeConnection] ∧
    ¬ LetsGo calls := by
  obtain ⟨first, run, tested⟩ := replayed step (fun _ _ => True) (.configured 1)
    (.start :: ServiceStates.connectOne 4 5 0)
    (fun service => service.pc = .ready ∧
      (follow (eventStep service 5 readWrite) [] [.sockError .unreadable, .handle, .readFailed]).any
        (fun result => result.1 = [.lookup, .getsockopt, .closeConnection, .read, .closeConnection]
          ∧ result.2.pc = .ready) = true) (by decide +kernel)
  obtain ⟨idle, follows⟩ := of_decide_eq_true tested
  obtain ⟨⟨calls, last⟩, followed, ends⟩ := (Option.any_eq_true _ _).mp follows
  obtain ⟨same, done⟩ := of_decide_eq_true ends
  refine ⟨first, last, calls, run, follow_handling (.taken idle) followed, done, same, ?_⟩
  intro goes
  have rest := goes [.lookup, .getsockopt] [.read, .closeConnection] same
  cases rest

end Results

end Libasock.EventHandlers
