import Libasock.GuardedRuns
import Mathlib.Logic.Function.Basic

/-!
The reference counter of an `asock_t`, one access at a time: threads that share
the object run the statements of `asock_destroy_asock` and
`asock_con_counter_incr` between each other. `holders` is the ghost that says
whose every counted reference is, and `Guarded` what no statement of any thread spoils.
-/

namespace Libasock.ReferenceStatements
open GuardedRuns

section Statements

/-- What an object holds. A descriptor of -1 and a `NULL` pointer are no parts. -/
inductive Part where
  | sockDesc | inQueue | outQueue | peerAddr | hostAddr | netNs
  deriving DecidableEq

/-- In the order of `asock_destroy_asock`. -/
def teardownOrder : List Part := [.sockDesc, .inQueue, .outQueue, .peerAddr, .hostAddr, .netNs]

inductive Pc where
  | outside
  -- asock_destroy_asock
  | marking
  | lockingDrop
  | loadingDrop
  | storingDrop (loaded : Int)
  | testing
  | releasing (rest : List Part)
  | unlockingDrop (deleteCon : Bool)
  | freeing (deleteCon : Bool)
  -- asock_con_counter_incr
  | lockingIncr
  | loadingIncr
  | storingIncr (loaded : Int)
  | unlockingIncr
  deriving DecidableEq

structure Shared (Thread : Type) where
  mRefCounter : Int
  mDisconnect : Bool
  mutex : Option Thread
  parts : List Part
  released : List Part
  freed : Nat
  faults : Nat
  holders : List Thread
  place : Thread → Pc

inductive Label (Thread : Type) where
  | destroy (thread : Thread)
  | incr (thread : Thread)
  | use (thread : Thread) (part : Part)
  | hand (giver taker : Thread)
  | run (thread : Thread)

variable {Thread : Type}

/-- Right after `asock_fcreate_asock`. -/
def Shared.created (creator : Thread) (parts : List Part) : Shared Thread :=
  ⟨1, false, none, parts, [], 0, 0, [creator], fun _ => .outside⟩

/-- An access to the object, which is a fault after its `free`. -/
def Shared.touch (shared : Shared Thread) : Shared Thread :=
  { shared with faults := if shared.freed = 0 then shared.faults else shared.faults + 1 }

variable [DecidableEq Thread]

def Shared.goto (shared : Shared Thread) (thread : Thread) (pc : Pc) : Shared Thread :=
  { shared with place := Function.update shared.place thread pc }

/-- The next statement of a thread; `none` while it waits for the mutex. -/
def runStatement (shared : Shared Thread) (thread : Thread) : Option (Shared Thread) :=
  match shared.place thread with
  | .outside => none
  | .marking => some { shared.touch.goto thread .lockingDrop with mDisconnect := true }
  | .lockingDrop =>
      if shared.mutex = none then
        some { shared.touch.goto thread .loadingDrop with mutex := some thread }
      else none
  | .loadingDrop => some (shared.touch.goto thread (.storingDrop shared.mRefCounter))
  | .storingDrop loaded =>
      some { shared.touch.goto thread .testing with
        mRefCounter := loaded - 1
        holders := shared.holders.erase thread }
  | .testing =>
      if shared.mRefCounter = 0 then some (shared.touch.goto thread (.releasing teardownOrder))
      else some (shared.touch.goto thread (.unlockingDrop false))
  -- `delete_con` is a local, so this statement touches nothing that is shared.
  | .releasing [] => some (shared.goto thread (.unlockingDrop true))
  | .releasing (part :: rest) =>
      some { shared.touch.goto thread (.releasing rest) with
        released := shared.released ++ if part ∈ shared.parts then [part] else [] }
  | .unlockingDrop deleteCon =>
      some { shared.touch.goto thread (.freeing deleteCon) with mutex := none }
  | .freeing deleteCon =>
      some { shared.goto thread .outside with
        freed := if deleteCon then shared.freed + 1 else shared.freed }
  | .lockingIncr =>
      if shared.mutex = none then
        some { shared.touch.goto thread .loadingIncr with mutex := some thread }
      else none
  | .loadingIncr => some (shared.touch.goto thread (.storingIncr shared.mRefCounter))
  | .storingIncr loaded =>
      some { shared.touch.goto thread .unlockingIncr with
        mRefCounter := loaded + 1
        holders := thread :: shared.holders }
  | .unlockingIncr => some { shared.touch.goto thread .outside with mutex := none }

/-- Only who holds a reference calls, uses the object or hands a reference on. -/
def Shared.mayUse (shared : Shared Thread) (thread : Thread) : Prop :=
  shared.place thread = .outside ∧ thread ∈ shared.holders

instance mayUseDecidable (shared : Shared Thread) (thread : Thread) :
    Decidable (shared.mayUse thread) :=
  inferInstanceAs (Decidable (_ ∧ _))

def step (shared : Shared Thread) : Label Thread → Option (Shared Thread)
  | .destroy thread => if shared.mayUse thread then some (shared.goto thread .marking) else none
  | .incr thread => if shared.mayUse thread then some (shared.goto thread .lockingIncr) else none
  | .use thread part =>
      if shared.mayUse thread then
        some { shared with faults :=
          if shared.freed = 0 ∧ part ∉ shared.released then shared.faults else shared.faults + 1 }
      else none
  | .hand giver taker =>
      if shared.mayUse giver then
        some { shared with holders := taker :: shared.holders.erase giver }
      else none
  | .run thread => runStatement shared thread

end Statements

section Invariant
variable {Thread : Type}

def Pc.holdsMutex : Pc → Bool
  | .loadingDrop | .storingDrop _ | .testing | .releasing _ | .unlockingDrop _ => true
  | .loadingIncr | .storingIncr _ | .unlockingIncr => true
  | .outside | .marking | .lockingDrop | .freeing _ | .lockingIncr => false

/-- The call still has the reference it was made with. -/
def Pc.usesReference : Pc → Bool
  | .marking | .lockingDrop | .loadingDrop | .storingDrop _ => true
  | .lockingIncr | .loadingIncr | .storingIncr _ | .unlockingIncr => true
  | .outside | .testing | .releasing _ | .unlockingDrop _ | .freeing _ => false

/-- The object ends in the hands of this thread. -/
def Pc.ends : Pc → Bool
  | .releasing _ | .unlockingDrop true | .freeing true => true
  | _ => false

/-- No statement to come touches the object. -/
def Pc.rests : Pc → Bool
  | .outside | .freeing false => true
  | _ => false

def allParts (parts : List Part) : List Part := teardownOrder.filter (· ∈ parts)

/-- How far the last thread is. -/
def Ending (parts released : List Part) : Pc → Prop
  | .testing => released = []
  | .releasing rest => ∃ done, teardownOrder = done ++ rest ∧ released = done.filter (· ∈ parts)
  | .unlockingDrop true | .freeing true => released = allParts parts
  | _ => False

inductive Stage (shared : Shared Thread) : Prop where
  | inUse (held : shared.holders ≠ []) (whole : shared.released = [])
      (allocated : shared.freed = 0) (quiet : ∀ thread, (shared.place thread).ends = false)
  | last (thread : Thread) (unheld : shared.holders = []) (allocated : shared.freed = 0)
      (ending : Ending shared.parts shared.released (shared.place thread))
      (others : ∀ other, other ≠ thread → (shared.place other).rests = true)
  | gone (unheld : shared.holders = []) (freed : shared.freed = 1)
      (all : shared.released = allParts shared.parts)
      (others : ∀ other, (shared.place other).rests = true)

structure Guarded (shared : Shared Thread) : Prop where
  faultless : shared.faults = 0
  counted : shared.mRefCounter = shared.holders.length
  loaded : ∀ thread value,
    shared.place thread = .storingDrop value ∨ shared.place thread = .storingIncr value →
      value = shared.mRefCounter
  exclusive : ∀ thread, (shared.place thread).holdsMutex = true ↔ shared.mutex = some thread
  referenced : ∀ thread, (shared.place thread).usesReference = true → thread ∈ shared.holders
  stage : Stage shared

theorem created_guarded (creator : Thread) (parts : List Part) :
    Guarded (.created creator parts) where
  faultless := rfl
  counted := rfl
  loaded := by
    rintro thread value (stands | stands) <;> cases stands
  exclusive := by
    intro thread
    constructor
    · intro holds
      cases holds
    · intro held
      cases held
  referenced := by
    intro thread uses
    cases uses
  stage := by
    refine .inUse ?_ rfl rfl fun _ => rfl
    intro empty
    cases empty

variable {shared next : Shared Thread} {thread : Thread}

theorem Guarded.opened (guarded : Guarded shared) (held : shared.holders ≠ []) :
    shared.released = [] ∧ shared.freed = 0 ∧ ∀ thread, (shared.place thread).ends = false := by
  cases guarded.stage with
  | inUse _ whole allocated quiet => exact ⟨whole, allocated, quiet⟩
  | last thread unheld | gone unheld => exact (held unheld).elim

theorem holders_occupied (member : thread ∈ shared.holders) : shared.holders ≠ [] :=
  List.ne_nil_of_mem member

variable [DecidableEq Thread]

@[simp] theorem goto_here (shared : Shared Thread) (thread : Thread) (pc : Pc) :
    (shared.goto thread pc).place thread = pc := Function.update_self ..

theorem goto_there {other : Thread} (pc : Pc) (elsewhere : other ≠ thread) :
    (shared.goto thread pc).place other = shared.place other := Function.update_of_ne elsewhere ..

theorem quiet_goto {pc : Pc} (quiet : ∀ thread, (shared.place thread).ends = false)
    (here : pc.ends = false) : ∀ other, ((shared.goto thread pc).place other).ends = false := by
  intro other
  by_cases same : other = thread
  · subst same
    rw [goto_here]
    exact here
  · rw [goto_there pc same]
    exact quiet other

/-- One thread moves. What it may change is asked of it here, the others follow. -/
theorem Guarded.moves (guarded : Guarded shared) {pc : Pc}
    (places : next.place = (shared.goto thread pc).place) (faultless : next.faults = 0)
    (counted : next.mRefCounter = next.holders.length)
    (loadedHere : ∀ value, pc = .storingDrop value ∨ pc = .storingIncr value →
      value = next.mRefCounter)
    (loadedThere : next.mRefCounter = shared.mRefCounter ∨ shared.mutex = some thread)
    (mutexHere : pc.holdsMutex = true ↔ next.mutex = some thread)
    (mutexThere : ∀ other, other ≠ thread →
      (next.mutex = some other ↔ shared.mutex = some other))
    (referenceHere : pc.usesReference = true → thread ∈ next.holders)
    (referenceThere : ∀ other, other ≠ thread → other ∈ shared.holders → other ∈ next.holders)
    (stage : Stage next) : Guarded next where
  faultless := faultless
  counted := counted
  loaded := by
    intro other value
    rw [places]
    by_cases same : other = thread
    · subst same
      rw [goto_here]
      exact loadedHere value
    · rw [goto_there pc same]
      intro has
      have old := guarded.loaded other value has
      rcases loadedThere with kept | owned
      · exact old.trans kept.symm
      · have holds : (shared.place other).holdsMutex = true := by
          rcases has with stands | stands <;> rw [stands] <;> rfl
        have owner := (guarded.exclusive other).mp holds
        rw [owned] at owner
        exact (same (Option.some.inj owner).symm).elim
  exclusive := by
    intro other
    rw [places]
    by_cases same : other = thread
    · subst same
      rw [goto_here]
      exact mutexHere
    · rw [goto_there pc same, mutexThere other same]
      exact guarded.exclusive other
  referenced := by
    intro other
    rw [places]
    by_cases same : other = thread
    · subst same
      rw [goto_here]
      exact referenceHere
    · rw [goto_there pc same]
      intro uses
      exact referenceThere other same (guarded.referenced other uses)
  stage := stage

omit [DecidableEq Thread] in
theorem touch_allocated (allocated : shared.freed = 0) : shared.touch = shared := by
  unfold Shared.touch
  rw [if_pos allocated]

omit [DecidableEq Thread] in
/-- A thread with statements to come shares an open object or is the last one. -/
theorem Guarded.runner (guarded : Guarded shared) (busy : (shared.place thread).rests = false) :
    (shared.holders ≠ [] ∧ shared.released = [] ∧ shared.freed = 0 ∧
        ∀ other, (shared.place other).ends = false) ∨
      (shared.holders = [] ∧ shared.freed = 0 ∧
        Ending shared.parts shared.released (shared.place thread) ∧
        ∀ other, other ≠ thread → (shared.place other).rests = true) := by
  cases guarded.stage with
  | inUse held whole allocated quiet => exact .inl ⟨held, whole, allocated, quiet⟩
  | last final unheld allocated ending others =>
      by_cases same : thread = final
      · subst same
        exact .inr ⟨unheld, allocated, ending, others⟩
      · rw [others thread same] at busy
        cases busy
  | gone unheld freed all others =>
      rw [others thread] at busy
      cases busy

/-- A statement of a call that still has its reference, up to the store of the counter. -/
theorem Guarded.goes (guarded : Guarded shared) {pc : Pc} {disconnect : Bool}
    {mutex : Option Thread} (uses : (shared.place thread).usesReference = true)
    (usesNext : pc.usesReference = true)
    (loadedHere : ∀ value, pc = .storingDrop value ∨ pc = .storingIncr value →
      value = shared.mRefCounter)
    (mutexHere : pc.holdsMutex = true ↔ mutex = some thread)
    (mutexThere : ∀ other, other ≠ thread → (mutex = some other ↔ shared.mutex = some other)) :
    Guarded { shared.touch.goto thread pc with mDisconnect := disconnect, mutex := mutex } := by
  have member := guarded.referenced thread uses
  obtain ⟨whole, allocated, quiet⟩ := guarded.opened (holders_occupied member)
  have ends : pc.ends = false := by
    cases pc <;> first | rfl | cases usesNext
  rw [touch_allocated allocated]
  refine guarded.moves rfl guarded.faultless guarded.counted loadedHere (.inl rfl) mutexHere
    mutexThere (fun _ => member) (fun _ _ held => held) ?_
  exact .inUse (holders_occupied member) whole allocated (quiet_goto quiet ends)

end Invariant

end Libasock.ReferenceStatements
