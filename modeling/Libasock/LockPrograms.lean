import Libasock.GuardedRuns
import Mathlib

/-!
Threads that take and give back mutexes. A `Program` keeps what a piece of code
does to mutexes and where it waits, and leaves every decision of its data open.
`Passes` reads a program against an order of the mutexes; what passes can neither
deadlock with any number of threads nor leave a mutex locked. The module names
no particular mutexes.
-/

namespace Libasock.LockPrograms
open GuardedRuns

universe u
variable {Mutex : Type u}

/-- `choose` and `loop` stand for decisions of the data; a `pause` waits for something
other than a mutex. -/
inductive Program (Mutex : Type u) where
  | skip
  | lock (mutex : Mutex)
  | unlock (mutex : Mutex)
  | pause
  | seq (first second : Program Mutex)
  | choose (options : Nat → Program Mutex)
  | loop (body : Program Mutex)

namespace Program

def either (first second : Program Mutex) : Program Mutex :=
  choose fun choice => if choice = 0 then first else second

def optional (body : Program Mutex) : Program Mutex := either skip body

def all : List (Program Mutex) → Program Mutex
  | [] => skip
  | first :: rest => seq first (all rest)

def holding (mutex : Mutex) (body : Program Mutex) : Program Mutex :=
  seq (lock mutex) (seq body (unlock mutex))

/-- Waiting on a condition in a loop: gives the mutex up, sleeps, takes it again. -/
def awaiting (mutex : Mutex) : Program Mutex :=
  loop (seq (unlock mutex) (seq pause (lock mutex)))

end Program

open Program

structure Thread (Mutex : Type u) where
  held : List Mutex
  todo : List (Program Mutex)

namespace Thread

def idle : Thread Mutex := ⟨[], []⟩

/-- The mutex a thread is about to take. -/
def wants (thread : Thread Mutex) : Option Mutex :=
  match thread.todo with
  | .lock mutex :: _ => some mutex
  | _ => none

def paused (thread : Thread Mutex) : Bool :=
  match thread.todo with
  | .pause :: _ => true
  | _ => false

end Thread

inductive Label (Mutex : Type u) where
  | spawn
  | call (index : Nat) (program : Program Mutex)
  | turn (index choice : Nat)

section Machine
variable [DecidableEq Mutex]

def Free (threads : List (Thread Mutex)) (mutex : Mutex) : Prop :=
  ∀ thread ∈ threads, mutex ∉ thread.held

instance (threads : List (Thread Mutex)) (mutex : Mutex) : Decidable (Free threads mutex) :=
  inferInstanceAs (Decidable (∀ thread ∈ threads, mutex ∉ thread.held))

/-- One turn of a thread. A locked mutex is waited for, by its own holder too; what a thread
does not hold it does not unlock. -/
def advance (threads : List (Thread Mutex)) (thread : Thread Mutex) (choice : Nat) :
    Option (Thread Mutex) :=
  match thread.todo with
  | [] => none
  | .skip :: later => some ⟨thread.held, later⟩
  | .pause :: later => some ⟨thread.held, later⟩
  | .lock mutex :: later =>
      if Free threads mutex then some ⟨mutex :: thread.held, later⟩ else none
  | .unlock mutex :: later =>
      if mutex ∈ thread.held then some ⟨thread.held.erase mutex, later⟩ else none
  | .seq first second :: later => some ⟨thread.held, first :: second :: later⟩
  | .choose options :: later => some ⟨thread.held, options choice :: later⟩
  | .loop body :: later =>
      some ⟨thread.held, if choice = 0 then later else body :: .loop body :: later⟩

def step (threads : List (Thread Mutex)) : Label Mutex → Option (List (Thread Mutex))
  | .spawn => some (threads ++ [.idle])
  | .call index program =>
      match threads[index]? with
      | some ⟨held, []⟩ => some (threads.set index ⟨held, [program]⟩)
      | _ => none
  | .turn index choice =>
      (threads[index]?).bind fun thread =>
        (advance threads thread choice).map fun next => threads.set index next

/-- Threads call nothing but the programs of a library. -/
def Calls (library : Program Mutex → Prop) (_ : List (Thread Mutex)) : Label Mutex → Prop
  | .call _ program => library program
  | _ => True

/-- A thread can take its next turn, whatever its data decide. -/
def CanTurn (threads : List (Thread Mutex)) (index : Nat) : Prop :=
  ∀ choice, (step threads (.turn index choice)).isSome

/-- The first thread waits for a mutex that the second holds. -/
def Waits (threads : List (Thread Mutex)) (waiter holder : Nat) : Prop :=
  ∃ thread other mutex, threads[waiter]? = some thread ∧ threads[holder]? = some other ∧
    thread.wants = some mutex ∧ mutex ∈ other.held

/-- No mutex is held twice. -/
def Exclusive (threads : List (Thread Mutex)) : Prop :=
  ∀ (first second : Nat) (thread other : Thread Mutex),
    threads[first]? = some thread → threads[second]? = some other →
      ∀ mutex ∈ thread.held, mutex ∈ other.held → first = second

end Machine

section Order

/-- The program takes mutexes only above those held, gives back the newest first, and pauses
with none; `after` is what is then held. -/
def Passes (rank : Mutex → Nat) : Program Mutex → List Mutex → List Mutex → Prop
  | .skip, held, after => after = held
  | .lock mutex, held, after =>
      (∀ other ∈ held, rank other < rank mutex) ∧ after = mutex :: held
  | .unlock mutex, held, after => held = mutex :: after
  | .pause, held, after => held = [] ∧ after = []
  | .seq first second, held, after =>
      ∃ middle, Passes rank first held middle ∧ Passes rank second middle after
  | .choose options, held, after => ∀ choice, Passes rank (options choice) held after
  | .loop body, held, after => after = held ∧ Passes rank body held held

/-- A whole program: it starts and ends with no mutex. -/
def Whole (rank : Mutex → Nat) (program : Program Mutex) : Prop := Passes rank program [] []

/-- A program that may run with any mutexes below `floor` held and leaves them as they are. -/
def Nested (rank : Mutex → Nat) (floor : Nat) (program : Program Mutex) : Prop :=
  ∀ held, (∀ mutex ∈ held, rank mutex < floor) → Passes rank program held held

variable {rank : Mutex → Nat} {floor : Nat}

theorem Passes.either {first second : Program Mutex} {held after : List Mutex}
    (left : Passes rank first held after) (right : Passes rank second held after) :
    Passes rank (.either first second) held after := by
  intro choice
  change Passes rank (if choice = 0 then first else second) held after
  split
  · exact left
  · exact right

theorem Nested.whole {program : Program Mutex} (nested : Nested rank floor program) :
    Whole rank program := by
  apply nested
  intro mutex impossible
  cases impossible

theorem Nested.skip : Nested rank floor (.skip : Program Mutex) := fun _ _ => rfl

theorem Nested.lower {lower : Nat} {program : Program Mutex} (nested : Nested rank floor program)
    (le : lower ≤ floor) : Nested rank lower program :=
  fun held below => nested held fun mutex mem => Nat.lt_of_lt_of_le (below mutex mem) le

theorem Nested.seq {first second : Program Mutex} (front : Nested rank floor first)
    (back : Nested rank floor second) : Nested rank floor (.seq first second) :=
  fun held below => ⟨held, front held below, back held below⟩

theorem Nested.choose {options : Nat → Program Mutex}
    (each : ∀ choice, Nested rank floor (options choice)) :
    Nested rank floor (.choose options) :=
  fun held below choice => each choice held below

theorem Nested.loop {body : Program Mutex} (nested : Nested rank floor body) :
    Nested rank floor (.loop body) :=
  fun held below => ⟨rfl, nested held below⟩

theorem Nested.either {first second : Program Mutex} (left : Nested rank floor first)
    (right : Nested rank floor second) : Nested rank floor (.either first second) :=
  fun held below => (left held below).either (right held below)

theorem Nested.optional {body : Program Mutex} (nested : Nested rank floor body) :
    Nested rank floor (.optional body) :=
  Nested.skip.either nested

/-- A critical section may hold what ranks below its mutex. -/
theorem Nested.holding {mutex : Mutex} {body : Program Mutex}
    (nested : Nested rank (rank mutex + 1) body) (le : floor ≤ rank mutex) :
    Nested rank floor (.holding mutex body) := by
  intro held below
  have under : ∀ other ∈ held, rank other < rank mutex :=
    fun other mem => Nat.lt_of_lt_of_le (below other mem) le
  have inside : ∀ other ∈ mutex :: held, rank other < rank mutex + 1 := by
    intro other mem
    cases List.mem_cons.mp mem with
    | inl same => subst same; omega
    | inr old => exact Nat.lt_succ_of_lt (under other old)
  exact ⟨mutex :: held, ⟨under, rfl⟩, mutex :: held, nested _ inside, rfl⟩

theorem Whole.skip : Whole rank (.skip : Program Mutex) := rfl

theorem Whole.pause : Whole rank (.pause : Program Mutex) := ⟨rfl, rfl⟩

theorem Whole.seq {first second : Program Mutex} (front : Whole rank first)
    (back : Whole rank second) : Whole rank (.seq first second) :=
  ⟨[], front, back⟩

theorem Whole.choose {options : Nat → Program Mutex}
    (each : ∀ choice, Whole rank (options choice)) : Whole rank (.choose options) := each

theorem Whole.loop {body : Program Mutex} (whole : Whole rank body) : Whole rank (.loop body) :=
  ⟨rfl, whole⟩

theorem Whole.either {first second : Program Mutex} (left : Whole rank first)
    (right : Whole rank second) : Whole rank (.either first second) :=
  Passes.either left right

theorem Whole.optional {body : Program Mutex} (whole : Whole rank body) :
    Whole rank (.optional body) :=
  Whole.skip.either whole

theorem Whole.done : Whole rank (.all ([] : List (Program Mutex))) := rfl

theorem Whole.followed {first : Program Mutex} {rest : List (Program Mutex)}
    (front : Whole rank first) (back : Whole rank (.all rest)) :
    Whole rank (.all (first :: rest)) :=
  front.seq back

/-- A critical section that waits on a condition holds its own mutex only. -/
theorem Whole.awaiting (mutex : Mutex) :
    Whole rank (.holding mutex (.awaiting mutex)) := by
  have none : ∀ other ∈ ([] : List Mutex), rank other < rank mutex := by
    intro other impossible
    cases impossible
  exact ⟨[mutex], ⟨none, rfl⟩, [mutex],
    ⟨rfl, [], rfl, [], ⟨rfl, rfl⟩, none, rfl⟩, rfl⟩

end Order

section Invariant
variable {rank : Mutex → Nat}

/-- What is left to do starts with the mutexes held and ends with none. -/
def Finishes (rank : Mutex → Nat) : List (Program Mutex) → List Mutex → Prop
  | [], held => held = []
  | program :: later, held =>
      ∃ middle, Passes rank program held middle ∧ Finishes rank later middle

structure Ordered (rank : Mutex → Nat) (thread : Thread Mutex) : Prop where
  finishes : Finishes rank thread.todo thread.held
  descends : thread.held.Pairwise fun newer older => rank older < rank newer

structure Sound (rank : Mutex → Nat) (threads : List (Thread Mutex)) : Prop where
  ordered : ∀ thread ∈ threads, Ordered rank thread
  exclusive : Exclusive threads

theorem Ordered.idle : Ordered rank (.idle : Thread Mutex) := ⟨rfl, .nil⟩

theorem Ordered.holds_nothing {thread : Thread Mutex} (ordered : Ordered rank thread)
    (done : thread.todo = []) : thread.held = [] := by
  have finishes := ordered.finishes
  rwa [done] at finishes

theorem wants_some {thread : Thread Mutex} {mutex : Mutex} (wants : thread.wants = some mutex) :
    ∃ later, thread.todo = .lock mutex :: later := by
  unfold Thread.wants at wants
  split at wants
  · rename_i found later head
    cases wants
    exact ⟨later, head⟩
  · cases wants

theorem Ordered.pauses_with_nothing {thread : Thread Mutex} (ordered : Ordered rank thread)
    (paused : thread.paused = true) : thread.held = [] := by
  have finishes := ordered.finishes
  unfold Thread.paused at paused
  split at paused
  · rename_i later head
    rw [head] at finishes
    obtain ⟨middle, ⟨none, _⟩, _⟩ := finishes
    exact none
  · cases paused

/-- A thread waits only for a mutex above all those it holds. -/
theorem Ordered.climbs {thread : Thread Mutex} {mutex : Mutex} (ordered : Ordered rank thread)
    (wants : thread.wants = some mutex) : ∀ other ∈ thread.held, rank other < rank mutex := by
  obtain ⟨later, head⟩ := wants_some wants
  have finishes := ordered.finishes
  rw [head] at finishes
  obtain ⟨middle, ⟨above, _⟩, _⟩ := finishes
  exact above

theorem exclusive_set {threads : List (Thread Mutex)} {index : Nat} {old next : Thread Mutex}
    (exclusive : Exclusive threads) (found : threads[index]? = some old)
    (covered : ∀ mutex ∈ next.held, mutex ∈ old.held ∨ Free threads mutex) :
    Exclusive (threads.set index next) := by
  have apart : ∀ (place : Nat) (thread : Thread Mutex), place ≠ index →
      threads[place]? = some thread → ∀ mutex ∈ next.held, mutex ∉ thread.held := by
    intro place thread other at_place mutex mine his
    cases covered mutex mine with
    | inl kept => exact other (exclusive place index thread old at_place found mutex his kept)
    | inr free => exact free thread (List.mem_of_getElem? at_place) his
  have inside : index < threads.length := (List.getElem?_eq_some_iff.mp found).1
  intro first second thread other one two mutex mem mem'
  rw [List.getElem?_set] at one two
  by_cases left : index = first
  · by_cases right : index = second
    · exact left.symm.trans right
    · rw [if_pos left, if_pos inside] at one
      rw [if_neg right] at two
      cases one
      exact absurd mem' (apart second other (Ne.symm right) two mutex mem)
  · rw [if_neg left] at one
    by_cases right : index = second
    · rw [if_pos right, if_pos inside] at two
      cases two
      exact absurd mem (apart first thread (Ne.symm left) one mutex mem')
    · rw [if_neg right] at two
      exact exclusive first second thread other one two mutex mem mem'

theorem exclusive_nil : Exclusive ([] : List (Thread Mutex)) := by
  intro first second thread other one
  cases one

theorem exclusive_spawn {threads : List (Thread Mutex)} (exclusive : Exclusive threads) :
    Exclusive (threads ++ [.idle]) := by
  have old : ∀ (place : Nat) (thread : Thread Mutex) (mutex : Mutex),
      (threads ++ [Thread.idle])[place]? = some thread → mutex ∈ thread.held →
        threads[place]? = some thread := by
    intro place thread mutex found mem
    rw [List.getElem?_append] at found
    split at found
    · exact found
    · rw [List.getElem?_singleton] at found
      split at found
      · cases found
        cases mem
      · cases found
  intro first second thread other one two mutex mem mem'
  exact exclusive first second thread other (old first thread mutex one mem)
    (old second other mutex two mem') mutex mem mem'

variable [DecidableEq Mutex]

/-- A turn keeps what is held, adds the free mutex it waited for, or gives one back. -/
theorem advance_held {threads : List (Thread Mutex)} {thread next : Thread Mutex} {choice : Nat}
    (turned : advance threads thread choice = some next) :
    ∀ mutex ∈ next.held, mutex ∈ thread.held ∨ Free threads mutex := by
  unfold advance at turned
  intro mutex mem
  split at turned
  · cases turned
  · cases turned
    exact .inl mem
  · cases turned
    exact .inl mem
  · split at turned
    · rename_i free
      cases turned
      cases List.mem_cons.mp mem with
      | inl same => subst same; exact .inr free
      | inr old => exact .inl old
    · cases turned
  · split at turned
    · cases turned
      exact .inl (List.mem_of_mem_erase mem)
    · cases turned
  · cases turned
    exact .inl mem
  · cases turned
    exact .inl mem
  · cases turned
    exact .inl mem

theorem advance_ordered {threads : List (Thread Mutex)} {thread next : Thread Mutex}
    {choice : Nat} (ordered : Ordered rank thread)
    (turned : advance threads thread choice = some next) : Ordered rank next := by
  obtain ⟨finishes, descends⟩ := ordered
  unfold advance at turned
  split at turned
  · cases turned
  · rename_i later head
    rw [head] at finishes
    obtain ⟨middle, same, rest⟩ := finishes
    cases turned
    cases same
    exact ⟨rest, descends⟩
  · rename_i later head
    rw [head] at finishes
    obtain ⟨middle, ⟨none, same⟩, rest⟩ := finishes
    cases turned
    subst same
    exact ⟨by rw [none]; exact rest, descends⟩
  · rename_i mutex later head
    rw [head] at finishes
    obtain ⟨middle, ⟨above, same⟩, rest⟩ := finishes
    split at turned
    · cases turned
      subst same
      exact ⟨rest, List.pairwise_cons.mpr ⟨above, descends⟩⟩
    · cases turned
  · rename_i mutex later head
    rw [head] at finishes
    obtain ⟨middle, same, rest⟩ := finishes
    split at turned
    · cases turned
      have given : thread.held.erase mutex = middle := by rw [same]; simp
      rw [same] at descends
      refine ⟨?_, ?_⟩
      · rw [given]
        exact rest
      · rw [given]
        exact (List.pairwise_cons.mp descends).2
    · cases turned
  · rename_i first second later head
    rw [head] at finishes
    obtain ⟨middle, ⟨between, front, back⟩, rest⟩ := finishes
    cases turned
    exact ⟨⟨between, front, middle, back, rest⟩, descends⟩
  · rename_i options later head
    rw [head] at finishes
    obtain ⟨middle, each, rest⟩ := finishes
    cases turned
    exact ⟨⟨middle, each choice, rest⟩, descends⟩
  · rename_i body later head
    rw [head] at finishes
    obtain ⟨middle, ⟨same, again⟩, rest⟩ := finishes
    subst same
    cases turned
    refine ⟨?_, descends⟩
    split
    · exact rest
    · exact ⟨thread.held, again, thread.held, ⟨rfl, again⟩, rest⟩

theorem step_exclusive (before : List (Thread Mutex)) (label : Label Mutex)
    (after : List (Thread Mutex)) (exclusive : Exclusive before)
    (stepped : step before label = some after) : Exclusive after := by
  cases label with
  | spawn =>
      cases stepped
      exact exclusive_spawn exclusive
  | call index program =>
      simp only [step] at stepped
      split at stepped
      · rename_i held found
        cases stepped
        exact exclusive_set exclusive found fun mutex mem => .inl mem
      · cases stepped
  | turn index choice =>
      simp only [step, Option.bind_eq_some_iff, Option.map_eq_some_iff] at stepped
      obtain ⟨thread, found, next, turned, same⟩ := stepped
      subst same
      exact exclusive_set exclusive found (advance_held turned)

/-- No program breaks mutual exclusion. -/
theorem run_exclusive {library : Program Mutex → Prop} {threads : List (Thread Mutex)}
    (run : GuardedRun step (Calls library) [] threads) : Exclusive threads := by
  apply run.invariant Exclusive _ exclusive_nil
  intro before label after exclusive _ stepped
  exact step_exclusive before label after exclusive stepped

theorem step_sound {library : Program Mutex → Prop}
    (whole : ∀ program, library program → Whole rank program)
    (before : List (Thread Mutex)) (label : Label Mutex) (after : List (Thread Mutex))
    (sound : Sound rank before) (allowed : Calls library before label)
    (stepped : step before label = some after) : Sound rank after := by
  refine ⟨?_, step_exclusive before label after sound.exclusive stepped⟩
  intro thread mem
  cases label with
  | spawn =>
      cases stepped
      cases List.mem_append.mp mem with
      | inl old => exact sound.ordered thread old
      | inr new => rw [List.mem_singleton.mp new]; exact Ordered.idle
  | call index program =>
      simp only [step] at stepped
      split at stepped
      · rename_i held found
        cases stepped
        have none : held = [] :=
          (sound.ordered _ (List.mem_of_getElem? found)).holds_nothing rfl
        subst none
        cases List.mem_or_eq_of_mem_set mem with
        | inl old => exact sound.ordered thread old
        | inr new => subst new; exact ⟨⟨[], whole program allowed, rfl⟩, .nil⟩
      · cases stepped
  | turn index choice =>
      simp only [step, Option.bind_eq_some_iff, Option.map_eq_some_iff] at stepped
      obtain ⟨mover, found, next, turned, same⟩ := stepped
      subst same
      cases List.mem_or_eq_of_mem_set mem with
      | inl old => exact sound.ordered thread old
      | inr new =>
          subst new
          exact advance_ordered (sound.ordered mover (List.mem_of_getElem? found)) turned

/-- Any number of threads, each calling whole programs one after another. -/
theorem run_sound {library : Program Mutex → Prop}
    (whole : ∀ program, library program → Whole rank program) {threads : List (Thread Mutex)}
    (run : GuardedRun step (Calls library) [] threads) : Sound rank threads := by
  apply run.invariant (Sound rank) (step_sound whole)
  refine ⟨?_, exclusive_nil⟩
  intro thread impossible
  cases impossible

end Invariant

section Progress
variable {rank : Mutex → Nat} {threads : List (Thread Mutex)}

theorem not_free {mutex : Mutex} (taken : ¬ Free threads mutex) :
    ∃ (holder : Nat) (other : Thread Mutex),
      threads[holder]? = some other ∧ mutex ∈ other.held := by
  simp only [Free, not_forall, not_not] at taken
  obtain ⟨other, mem, held⟩ := taken
  obtain ⟨holder, found⟩ := List.mem_iff_getElem?.mp mem
  exact ⟨holder, other, found, held⟩

variable [DecidableEq Mutex]

/-- Inside a program a thread can go on unless it waits for a mutex. -/
theorem turns_or_waits {index : Nat} {thread : Thread Mutex} (ordered : Ordered rank thread)
    (found : threads[index]? = some thread) (busy : thread.todo ≠ []) :
    CanTurn threads index ∨ ∃ mutex, thread.wants = some mutex ∧ ¬ Free threads mutex := by
  have turns : (∀ choice, (advance threads thread choice).isSome) → CanTurn threads index := by
    intro each choice
    simp [step, found, each choice]
  have finishes := ordered.finishes
  cases head : thread.todo with
  | nil => exact absurd head busy
  | cons program later =>
      rw [head] at finishes
      obtain ⟨middle, passes, _⟩ := finishes
      cases program with
      | lock mutex =>
          by_cases free : Free threads mutex
          · left
            apply turns
            intro choice
            simp [advance, head, free]
          · right
            exact ⟨mutex, by simp [Thread.wants, head], free⟩
      | unlock mutex =>
          left
          apply turns
          intro choice
          have mine : mutex ∈ thread.held := by
            have same : thread.held = mutex :: middle := passes
            rw [same]
            exact List.mem_cons_self
          simp [advance, head, mine]
      | _ =>
          left
          apply turns
          intro choice
          simp [advance, head]

theorem waiting_reaches_turn {bound : Nat} (bounded : ∀ mutex, rank mutex < bound)
    (sound : Sound rank threads) (gap : Nat) :
    ∀ (index : Nat) (thread : Thread Mutex) (mutex : Mutex),
      threads[index]? = some thread → thread.wants = some mutex → ¬ Free threads mutex →
      bound - rank mutex ≤ gap →
        ∃ last, Relation.ReflTransGen (Waits threads) index last ∧ CanTurn threads last := by
  -- the mutex waited for ranks higher from each thread to the holder it waits for
  induction gap with
  | zero =>
      intro index thread mutex _ _ _ close
      have := bounded mutex
      omega
  | succ gap ih =>
      intro index thread mutex found wants taken close
      obtain ⟨holder, other, at_holder, held⟩ := not_free taken
      have waits : Waits threads index holder :=
        ⟨thread, other, mutex, found, at_holder, wants, held⟩
      have ordered := sound.ordered other (List.mem_of_getElem? at_holder)
      have busy : other.todo ≠ [] := by
        intro done
        rw [ordered.holds_nothing done] at held
        cases held
      cases turns_or_waits ordered at_holder busy with
      | inl turns => exact ⟨holder, .single waits, turns⟩
      | inr stuck =>
          obtain ⟨higher, wanted, blocked⟩ := stuck
          have up : rank mutex < rank higher := ordered.climbs wanted mutex held
          have top := bounded higher
          obtain ⟨last, chain, turns⟩ :=
            ih holder other higher at_holder wanted blocked (by omega)
          exact ⟨last, .head waits chain, turns⟩

/-- No thread is deadlocked: who waits, waits in the end for a thread that can go on. -/
theorem busy_reaches_turn {bound : Nat} (bounded : ∀ mutex, rank mutex < bound)
    (sound : Sound rank threads) {index : Nat} {thread : Thread Mutex}
    (found : threads[index]? = some thread) (busy : thread.todo ≠ []) :
    ∃ last, Relation.ReflTransGen (Waits threads) index last ∧ CanTurn threads last := by
  cases turns_or_waits (sound.ordered thread (List.mem_of_getElem? found)) found busy with
  | inl turns => exact ⟨index, .refl, turns⟩
  | inr stuck =>
      obtain ⟨mutex, wants, taken⟩ := stuck
      exact waiting_reaches_turn bounded sound (bound - rank mutex) index thread mutex found wants
        taken (Nat.le_refl _)

/-- What mutexes are for and what they must not do. -/
structure Safe (rank : Mutex → Nat) (threads : List (Thread Mutex)) : Prop where
  exclusive : Exclusive threads
  idle_free : ∀ thread ∈ threads, thread.todo = [] → thread.held = []
  paused_free : ∀ thread ∈ threads, thread.paused = true → thread.held = []
  ordered : ∀ thread ∈ threads, ∀ mutex, thread.wants = some mutex →
    ∀ other ∈ thread.held, rank other < rank mutex
  no_deadlock : ∀ (index : Nat) (thread : Thread Mutex), threads[index]? = some thread →
    thread.todo ≠ [] →
      ∃ last, Relation.ReflTransGen (Waits threads) index last ∧ CanTurn threads last

/-- Whole programs over a bounded order of mutexes are safe together. -/
theorem run_safe {bound : Nat} {library : Program Mutex → Prop}
    (bounded : ∀ mutex, rank mutex < bound)
    (whole : ∀ program, library program → Whole rank program)
    (run : GuardedRun step (Calls library) [] threads) : Safe rank threads := by
  have sound : Sound rank threads := run_sound whole run
  constructor
  case exclusive => exact sound.exclusive
  case idle_free =>
    intro thread mem done
    exact (sound.ordered thread mem).holds_nothing done
  case paused_free =>
    intro thread mem paused
    exact (sound.ordered thread mem).pauses_with_nothing paused
  case ordered =>
    intro thread mem mutex wants
    exact (sound.ordered thread mem).climbs wants
  case no_deadlock =>
    intro index thread found busy
    exact busy_reaches_turn bounded sound found busy

end Progress

section Kept
variable {mutex : Mutex}

/-- No way through the program ends without taking the mutex. -/
def Stops (mutex : Mutex) : Program Mutex → Prop
  | .lock taken => taken = mutex
  | .seq first second => Stops mutex first ∨ Stops mutex second
  | .choose options => ∀ choice, Stops mutex (options choice)
  | _ => False

/-- The program gives the mutex back only after taking it. -/
def Keeps (mutex : Mutex) : Program Mutex → Prop
  | .unlock given => given ≠ mutex
  | .seq first second => Keeps mutex first ∧ (Stops mutex first ∨ Keeps mutex second)
  | .choose options => ∀ choice, Keeps mutex (options choice)
  | .loop body => Keeps mutex body
  | _ => True

/-- The same of what a thread has left to do. -/
def Retakes (mutex : Mutex) : List (Program Mutex) → Prop
  | [] => True
  | program :: later => Keeps mutex program ∧ (Stops mutex program ∨ Retakes mutex later)

theorem Keeps.seq {first second : Program Mutex} (front : Keeps mutex first)
    (back : Keeps mutex second) : Keeps mutex (.seq first second) :=
  ⟨front, .inr back⟩

theorem Keeps.either {first second : Program Mutex} (left : Keeps mutex first)
    (right : Keeps mutex second) : Keeps mutex (.either first second) := by
  intro choice
  change Keeps mutex (if choice = 0 then first else second)
  split
  · exact left
  · exact right

theorem Keeps.optional {body : Program Mutex} (keeps : Keeps mutex body) :
    Keeps mutex (.optional body) :=
  Keeps.either trivial keeps

theorem Keeps.done : Keeps mutex (.all []) := trivial

theorem Keeps.followed {first : Program Mutex} {rest : List (Program Mutex)}
    (front : Keeps mutex first) (back : Keeps mutex (.all rest)) :
    Keeps mutex (.all (first :: rest)) :=
  front.seq back

/-- What keeps to an order gives back only what it took. -/
theorem passes_keeps {rank : Mutex → Nat} {program : Program Mutex} {held after : List Mutex}
    (passes : Passes rank program held after) (absent : mutex ∉ held) :
    Keeps mutex program ∧ (mutex ∈ after → Stops mutex program) := by
  induction program generalizing held after with
  | skip =>
      cases passes
      exact ⟨trivial, fun mem => absurd mem absent⟩
  | lock taken =>
      obtain ⟨_, same⟩ := passes
      subst same
      refine ⟨trivial, ?_⟩
      intro mem
      cases List.mem_cons.mp mem with
      | inl hit => exact hit.symm
      | inr old => exact absurd old absent
  | unlock given =>
      have same : held = given :: after := passes
      subst same
      refine ⟨?_, ?_⟩
      · intro hit
        exact absent (hit ▸ List.mem_cons_self)
      · intro mem
        exact absurd (List.mem_cons_of_mem given mem) absent
  | pause =>
      obtain ⟨_, same⟩ := passes
      subst same
      refine ⟨trivial, ?_⟩
      intro impossible
      cases impossible
  | seq first second front back =>
      obtain ⟨middle, one, two⟩ := passes
      obtain ⟨keepsFirst, stopsFirst⟩ := front one absent
      by_cases inside : mutex ∈ middle
      · have stops := stopsFirst inside
        exact ⟨⟨keepsFirst, .inl stops⟩, fun _ => .inl stops⟩
      · obtain ⟨keepsSecond, stopsSecond⟩ := back two inside
        exact ⟨⟨keepsFirst, .inr keepsSecond⟩, fun mem => .inr (stopsSecond mem)⟩
  | choose options each =>
      refine ⟨fun choice => (each choice (passes choice) absent).1, ?_⟩
      intro mem choice
      exact (each choice (passes choice) absent).2 mem
  | loop body inner =>
      obtain ⟨same, again⟩ := passes
      subst same
      exact ⟨(inner again absent).1, fun mem => absurd mem absent⟩

theorem Whole.keeps {rank : Mutex → Nat} {program : Program Mutex} (whole : Whole rank program)
    (mutex : Mutex) : Keeps mutex program :=
  (passes_keeps whole List.not_mem_nil).1

variable [DecidableEq Mutex]

theorem advance_keeps {threads : List (Thread Mutex)} {thread next : Thread Mutex} {choice : Nat}
    (member : thread ∈ threads) (mine : mutex ∈ thread.held)
    (retakes : Retakes mutex thread.todo)
    (turned : advance threads thread choice = some next) :
    mutex ∈ next.held ∧ Retakes mutex next.todo := by
  unfold advance at turned
  split at turned
  · cases turned
  · rename_i later head
    rw [head] at retakes
    cases turned
    exact ⟨mine, retakes.2.resolve_left id⟩
  · rename_i later head
    rw [head] at retakes
    cases turned
    exact ⟨mine, retakes.2.resolve_left id⟩
  · rename_i taken later head
    rw [head] at retakes
    split at turned
    · rename_i free
      cases turned
      have other : taken ≠ mutex := by
        intro same
        subst same
        exact free thread member mine
      exact ⟨List.mem_cons_of_mem taken mine, retakes.2.resolve_left other⟩
    · cases turned
  · rename_i given later head
    rw [head] at retakes
    split at turned
    · cases turned
      have other : given ≠ mutex := retakes.1
      exact ⟨(List.mem_erase_of_ne (Ne.symm other)).mpr mine, retakes.2.resolve_left id⟩
    · cases turned
  · rename_i first second later head
    rw [head] at retakes
    obtain ⟨⟨keepsFirst, between⟩, afterwards⟩ := retakes
    cases turned
    refine ⟨mine, keepsFirst, ?_⟩
    cases between with
    | inl stops => exact .inl stops
    | inr keepsSecond =>
        rcases afterwards with (stopsFirst | stopsSecond) | rest
        · exact .inl stopsFirst
        · exact .inr ⟨keepsSecond, .inl stopsSecond⟩
        · exact .inr ⟨keepsSecond, .inr rest⟩
  · rename_i options later head
    rw [head] at retakes
    cases turned
    exact ⟨mine, retakes.1 choice, retakes.2.imp_left fun stops => stops choice⟩
  · rename_i body later head
    rw [head] at retakes
    have rest := retakes.2.resolve_left id
    cases turned
    refine ⟨mine, ?_⟩
    split
    · exact rest
    · exact ⟨retakes.1, .inr ⟨retakes.1, .inr rest⟩⟩

/-- Among programs that give the mutex back only after taking it, a thread that has it at a
point where they do not expect it never gives it back. -/
theorem held_for_ever {library : Program Mutex → Prop}
    (keeps : ∀ program, library program → Keeps mutex program)
    {first last : List (Thread Mutex)} (run : GuardedRun step (Calls library) first last)
    {index : Nat} {thread : Thread Mutex} (found : first[index]? = some thread)
    (mine : mutex ∈ thread.held) (retakes : Retakes mutex thread.todo) :
    ∃ now, last[index]? = some now ∧ mutex ∈ now.held := by
  have kept : ∃ now, last[index]? = some now ∧ mutex ∈ now.held ∧
      Retakes mutex now.todo := by
    apply run.invariant
      (fun threads => ∃ now, threads[index]? = some now ∧ mutex ∈ now.held ∧
        Retakes mutex now.todo) _ ⟨thread, found, mine, retakes⟩
    intro before label after held allowed stepped
    obtain ⟨now, here, has, todo⟩ := held
    have inside : index < before.length := (List.getElem?_eq_some_iff.mp here).1
    cases label with
    | spawn =>
        cases stepped
        exact ⟨now, by rw [List.getElem?_append_left inside]; exact here, has, todo⟩
    | call place program =>
        simp only [step] at stepped
        split at stepped
        · rename_i owned there
          cases stepped
          by_cases same : place = index
          · subst same
            rw [here] at there
            cases there
            refine ⟨_, List.getElem?_set_self inside, has, ?_⟩
            exact ⟨keeps program allowed, .inr trivial⟩
          · exact ⟨now, by rw [List.getElem?_set_ne same]; exact here, has, todo⟩
        · cases stepped
    | turn place choice =>
        simp only [step, Option.bind_eq_some_iff, Option.map_eq_some_iff] at stepped
        obtain ⟨mover, there, next, turned, same⟩ := stepped
        subst same
        by_cases same : place = index
        · subst same
          rw [here] at there
          cases there
          exact ⟨next, List.getElem?_set_self inside,
            advance_keeps (List.mem_of_getElem? here) has todo turned⟩
        · exact ⟨now, by rw [List.getElem?_set_ne same]; exact here, has, todo⟩
  obtain ⟨now, here, has, _⟩ := kept
  exact ⟨now, here, has⟩

/-- Turns of one thread are a run, whatever may be called. -/
theorem turns_run {library : Program Mutex → Prop} {first last : List (Thread Mutex)}
    {index : Nat} {choices : List Nat}
    (played : exec step first (choices.map (Label.turn index)) = some last) :
    GuardedRun step (Calls library) first last := by
  induction choices generalizing first with
  | nil =>
      have same : first = last := by simpa [exec] using played
      subst same
      exact .refl
  | cons choice rest ih =>
      obtain ⟨next, stepped, tail⟩ := exec_cons_some played
      exact GuardedRun.trans (.next (.turn index choice) .refl trivial stepped) (ih tail)

end Kept

end Libasock.LockPrograms
