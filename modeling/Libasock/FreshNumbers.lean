import Libasock.LockedRuns
import Mathlib.Algebra.Group.Nat.Defs

/-!
The two counters of `asock_impl.c`, which number the services and the
connections, one access at a time. Each has a mutex of its own. However the
threads that create objects interleave, no number is given twice.
-/

namespace Libasock.FreshNumbers
open GuardedRuns LockedObjects

section Counters

/-- `s_servicies_created` and `asock_cons_number`. -/
inductive Counter where
  | services | connections

inductive Frame where
  | load
  | store (loaded : Nat)
  | leave (number : Nat)

/-- `result = ++s_servicies_created` and `m_connection_id = asock_cons_number++`, load and store
apart. The first counter is an `int`, whose overflow is undefined. -/
def statement (counter : Counter) (frame : Frame) (value : Nat) : Option (Frame × Nat) :=
  match frame with
  | .load => some (.store value, value)
  | .store loaded =>
      match counter with
      | .services => if loaded + 1 < 2 ^ 31 then some (.leave (loaded + 1), loaded + 1) else none
      | .connections => some (.leave loaded, (loaded + 1) % 2 ^ 64)
  | .leave _ => none

def program (counter : Counter) : Program Nat Unit Frame Nat where
  entry _ := .underLock .load
  advance := statement counter
  finished
    | .leave number => some number
    | _ => none

/-- The first value that the type of the number does not hold: `int32_t`, and `int64_t` for
`m_connection_id`. -/
def Counter.bound : Counter → Nat
  | .services => 2 ^ 31
  | .connections => 2 ^ 63

def Counter.number (counter : Counter) (value : Nat) : Nat :=
  match counter with
  | .services => value + 1
  | .connections => value

/-- Whoever gets the mutex finds a number left. -/
def admits (counter : Counter) (value : Nat) (_ : Unit) : Prop := value + 1 < counter.bound

def Answers (counter : Counter) (value : Nat) (_ : Unit) (number next : Nat) : Prop :=
  number = counter.number value ∧ next = value + 1

def decided : Frame → Bool
  | .leave _ => true
  | _ => false

end Counters

section Numbers
variable {counter : Counter}

theorem statements_end {value : Nat} (admitted : admits counter value ()) :
    Ends (program counter) .load value (counter.number value) (value + 1) := by
  cases counter with
  | services =>
      have stores : statement .services (.store value) value =
          some (.leave (value + 1), value + 1) := if_pos admitted
      exact .later rfl (.later stores (.here rfl))
  | connections =>
      have below : value + 1 < 2 ^ 64 := Nat.lt_trans admitted (by decide)
      have stores : statement .connections (.store value) value =
          some (.leave value, value + 1) := by
        simp only [statement, Nat.mod_eq_of_lt below]
      exact .later rfl (.later stores (.here rfl))

theorem counter_sound (counter : Counter) :
    Sound (program counter) (Answers counter) (admits counter) Eq decided fun _ => () where
  runs := by
    intro now value call first enters fit admitted
    cases enters
    subst fit
    exact ⟨_, now + 1, now + 1, statements_end admitted, ⟨rfl, rfl⟩, rfl⟩
  looks := by
    intro now value sight call reads looks
    cases looks
  enters := by
    intro call first enters
    cases enters
    rfl
  remains := by
    intro frame next value after advances late
    cases frame with
    | leave number => cases advances
    | load | store => cases late
  hides := fun _ _ => rfl
  stops := by
    intro frame number ended
    cases frame with
    | leave number => exact ⟨rfl, fun _ => rfl⟩
    | load | store => cases ended

theorem number_increases (counter : Counter) (value : Nat) :
    counter.number value < counter.number (value + 1) := by
  cases counter <;> simp [Counter.number]

/-- One after another the calls get larger and larger numbers. -/
theorem plays_increasing {first last : Nat} {log : List (Done Unit Nat)}
    (plays : Plays (Answers counter) first log last) :
    log.Pairwise (fun early late => early.reply < late.reply) ∧
      ∀ entry ∈ log, entry.reply < counter.number last := by
  induction plays with
  | start => exact ⟨.nil, fun _ member => (List.not_mem_nil member).elim⟩
  | @next log now next ticket call number before answered ih =>
      obtain ⟨rfl, rfl⟩ := answered
      have more := number_increases counter now
      constructor
      · refine List.pairwise_append.mpr ⟨ih.1, List.pairwise_singleton .., ?_⟩
        intro entry member new single
        rw [List.mem_singleton.mp single]
        exact ih.2 entry member
      · intro entry member
        rcases List.mem_append.mp member with old | new
        · exact Nat.lt_trans (ih.2 entry old) more
        · rw [List.mem_singleton.mp new]
          exact more

end Numbers

section Results
variable {Thread : Type} [DecidableEq Thread]

-- No number is given to two calls, and a later call gets a larger one.
theorem numbers_fresh (counter : Counter) {world : World Thread Nat Unit Frame Nat}
    (run : GuardedRun (step (program counter)) (admitted (admits counter)) (.initial 0) world) :
    (∀ left right number, Event.returned left number ∈ world.history →
      Event.returned right number ∈ world.history → left = right) ∧
    ∀ early late earlyNumber lateNumber,
      [Event.returned early earlyNumber, Event.called late ()].Sublist world.history →
        Event.returned late lateNumber ∈ world.history → earlyNumber < lateNumber := by
  obtain ⟨log, now, ordering, _⟩ := linearized (counter_sound counter) rfl run
  have increasing := (plays_increasing ordering.plays).1
  constructor
  · intro left right number onLeft onRight
    obtain ⟨_, leftDone⟩ := ordering.returned left number onLeft
    obtain ⟨_, rightDone⟩ := ordering.returned right number onRight
    have distinct : (log.map Done.reply).Nodup :=
      List.pairwise_map.mpr (increasing.imp Nat.ne_of_lt)
    have same := List.inj_on_of_nodup_map distinct leftDone rightDone rfl
    exact congrArg Done.ticket same
  · intro early late earlyNumber lateNumber pair given
    obtain ⟨_, earlyDone⟩ := ordering.returned early earlyNumber (pair.subset (by simp))
    obtain ⟨_, lateDone⟩ := ordering.returned late lateNumber given
    have ordered := increasing.sublist (ordering.entries_ordered earlyDone lateDone pair)
    simpa using ordered

/-- The second thread waits between the first one's load and store; a third call comes later. -/
def threeCalls : List (Label Bool Unit) :=
  [.call true (), .acquire true, .advance true, .call false (), .advance true, .release true,
    .acquire false, .answer true, .call true (), .advance false, .advance false, .release false,
    .answer false, .acquire true, .advance true, .advance true, .release true, .answer true]

instance admitsDecidable (counter : Counter) (value : Nat) (call : Unit) :
    Decidable (admits counter value call) :=
  inferInstanceAs (Decidable (value + 1 < counter.bound))

theorem three_numbers :
    ∃ world : World Bool Nat Unit Frame Nat, world.history =
      [.called 0 (), .called 1 (), .returned 0 1, .called 2 (), .returned 1 2, .returned 2 3] ∧
      ∀ left right number, Event.returned left number ∈ world.history →
        Event.returned right number ∈ world.history → left = right := by
  obtain ⟨world, run, tested⟩ := replayed (step (program .services))
    (admitted (admits .services)) (.initial 0) threeCalls
    (fun world => world.history =
      [.called 0 (), .called 1 (), .returned 0 1, .called 2 (), .returned 1 2, .returned 2 3])
    (by decide)
  exact ⟨world, of_decide_eq_true tested, (numbers_fresh .services run).1⟩

end Results

end Libasock.FreshNumbers
