import Libasock.ReferenceStatements

/-!
Every statement on a shared `asock_t` keeps what `Guarded` says, so every
interleaving does. `sharing_safe`: nobody touches the object after its `free`,
and the last reference to go releases everything once.
-/

namespace Libasock.ReferenceStatements
open GuardedRuns

section Moves
variable {Thread : Type} {shared next : Shared Thread} {thread : Thread}

theorem rests_of {pc : Pc} (notEnding : pc.ends = false) (unlocked : pc.holdsMutex = false)
    (unused : pc.usesReference = false) : pc.rests = true := by
  cases pc with
  | outside => rfl
  | freeing deleteCon =>
      cases deleteCon with
      | false => rfl
      | true => cases notEnding
  | testing | releasing | unlockingDrop => cases unlocked
  | _ => cases unused

theorem rests_unused {pc : Pc} (rests : pc.rests = true) :
    pc.holdsMutex = false ∧ pc.usesReference = false := by
  cases pc <;> first | exact ⟨rfl, rfl⟩ | cases rests

theorem ends_busy {pc : Pc} (ends : pc.ends = true) : pc.rests = false := by
  cases pc with
  | releasing | unlockingDrop => rfl
  | freeing deleteCon =>
      cases deleteCon with
      | true => rfl
      | false => cases ends
  | _ => cases ends

/-- Who has begun to take the object apart is the last thread at it. -/
theorem Guarded.alone (guarded : Guarded shared) (ends : (shared.place thread).ends = true) :
    shared.holders = [] ∧ shared.freed = 0 ∧
      Ending shared.parts shared.released (shared.place thread) ∧
      ∀ other, other ≠ thread → (shared.place other).rests = true := by
  rcases guarded.runner (ends_busy ends) with ⟨_, _, _, quiet⟩ | alone
  · rw [quiet thread] at ends
    cases ends
  · exact alone

variable [DecidableEq Thread]

theorem rests_goto {pc : Pc} {other : Thread} (here : pc.rests = true)
    (there : other ≠ thread → (shared.place other).rests = true) :
    ((shared.goto thread pc).place other).rests = true := by
  by_cases same : other = thread
  · subst same
    rw [goto_here]
    exact here
  · rw [goto_there pc same]
    exact there same

/-- The counter is stored with one reference less. When it was the last, the others are out. -/
theorem Guarded.drops (guarded : Guarded shared) {loaded : Int}
    (pc : shared.place thread = .storingDrop loaded) :
    Guarded { shared.touch.goto thread .testing with
      mRefCounter := loaded - 1
      holders := shared.holders.erase thread } := by
  have member := guarded.referenced thread (by rw [pc]; rfl)
  have owned := (guarded.exclusive thread).mp (by rw [pc]; rfl)
  have value := guarded.loaded thread loaded (.inl pc)
  have counted := guarded.counted
  obtain ⟨whole, allocated, quiet⟩ := guarded.opened (holders_occupied member)
  have shorter := List.length_erase_of_mem member
  have positive := List.length_pos_of_mem member
  rw [touch_allocated allocated]
  refine guarded.moves rfl guarded.faultless ?_ ?_ (.inr owned) ⟨fun _ => owned, fun _ => rfl⟩
    (fun _ _ => Iff.rfl) ?_ (fun other apart held => (List.mem_erase_of_ne apart).mpr held) ?_
  · simp only
    omega
  · rintro stored (stands | stands) <;> cases stands
  · intro uses
    cases uses
  · -- Without a reference left no other call is at a statement that needs the object.
    by_cases remain : shared.holders.erase thread = []
    · refine .last thread remain allocated ?_ ?_
      · simp only [goto_here]
        exact whole
      · intro other apart
        simp only [goto_there _ apart]
        refine rests_of (quiet other) ?_ ?_
        · refine Bool.eq_false_iff.mpr fun holds => apart ?_
          have owner := (guarded.exclusive other).mp holds
          rw [owned] at owner
          exact (Option.some.inj owner).symm
        · refine Bool.eq_false_iff.mpr fun uses => ?_
          have held := (List.mem_erase_of_ne apart).mpr (guarded.referenced other uses)
          rw [remain] at held
          cases held
    · exact .inUse remain whole allocated (quiet_goto quiet rfl)

theorem Guarded.raises (guarded : Guarded shared) {loaded : Int}
    (pc : shared.place thread = .storingIncr loaded) :
    Guarded { shared.touch.goto thread .unlockingIncr with
      mRefCounter := loaded + 1
      holders := thread :: shared.holders } := by
  have member := guarded.referenced thread (by rw [pc]; rfl)
  have owned := (guarded.exclusive thread).mp (by rw [pc]; rfl)
  have value := guarded.loaded thread loaded (.inr pc)
  have counted := guarded.counted
  obtain ⟨whole, allocated, quiet⟩ := guarded.opened (holders_occupied member)
  rw [touch_allocated allocated]
  refine guarded.moves rfl guarded.faultless ?_ ?_ (.inr owned) ⟨fun _ => owned, fun _ => rfl⟩
    (fun _ _ => Iff.rfl) (fun _ => List.mem_cons_self ..)
    (fun other _ held => List.mem_cons_of_mem _ held)
    (.inUse (List.cons_ne_nil thread shared.holders) whole allocated (quiet_goto quiet rfl))
  · simp only [List.length_cons]
    omega
  · rintro stored (stands | stands) <;> cases stands

/-- A thread gives the mutex back and has nothing to do with the object any more. -/
theorem Guarded.leaves (guarded : Guarded shared) {pc : Pc} (owned : shared.mutex = some thread)
    (rests : pc.rests = true)
    (stage : Stage { shared.goto thread pc with mutex := none }) :
    Guarded { shared.goto thread pc with mutex := none } := by
  obtain ⟨unlocked, unused⟩ := rests_unused rests
  refine guarded.moves rfl guarded.faultless guarded.counted ?_ (.inl rfl) ?_ ?_ ?_
    (fun _ _ held => held) stage
  · rintro stored (rfl | rfl) <;> cases rests
  · constructor
    · intro holds
      rw [unlocked] at holds
      cases holds
    · intro held
      cases held
  · intro other apart
    rw [owned]
    constructor
    · intro held
      cases held
    · intro same
      exact (apart (Option.some.inj same).symm).elim
  · intro uses
    rw [unused] at uses
    cases uses

/-- The last thread goes on under the mutex or, past it, with nobody left to take it. -/
theorem Guarded.finishes (guarded : Guarded shared) {pc : Pc} {mutex : Option Thread}
    {released : List Part} (unheld : shared.holders = []) (allocated : shared.freed = 0)
    (others : ∀ other, other ≠ thread → (shared.place other).rests = true)
    (ending : Ending shared.parts released pc)
    (owned : shared.mutex = some thread) (holds : pc.holdsMutex = true ↔ mutex = some thread)
    (unlocks : mutex = shared.mutex ∨ mutex = none) :
    Guarded { shared.goto thread pc with released := released, mutex := mutex } := by
  have unused : pc.usesReference = false := by
    cases pc <;> first | rfl | cases ending
  refine guarded.moves rfl guarded.faultless guarded.counted ?_ (.inl rfl) holds ?_ ?_
    (fun _ _ held => held) (.last thread unheld allocated ?_ ?_)
  · rintro stored (rfl | rfl) <;> cases unused
  · intro other apart
    have notOwner : shared.mutex ≠ some other := by
      rw [owned]
      exact fun same => apart (Option.some.inj same).symm
    rcases unlocks with same | zero
    · exact same ▸ Iff.rfl
    · simp [zero, notOwner]
  · intro uses
    rw [unused] at uses
    cases uses
  · simp only [goto_here]
    exact ending
  · intro other apart
    simp only [goto_there _ apart]
    exact others other apart

/-- The test after the store: whoever reads zero is alone with the object. -/
theorem Guarded.tests (guarded : Guarded shared) (pc : shared.place thread = .testing) :
    Guarded (if shared.mRefCounter = 0 then shared.touch.goto thread (.releasing teardownOrder)
      else shared.touch.goto thread (.unlockingDrop false)) := by
  have owned := (guarded.exclusive thread).mp (by rw [pc]; rfl)
  have counted := guarded.counted
  rcases guarded.runner (by rw [pc]; rfl) with ⟨held, whole, allocated, quiet⟩ |
    ⟨unheld, allocated, ending, others⟩
  · have positive := List.length_pos_iff.mpr held
    rw [if_neg (by omega), touch_allocated allocated]
    refine guarded.moves rfl guarded.faultless counted ?_ (.inl rfl)
      ⟨fun _ => owned, fun _ => rfl⟩ (fun _ _ => Iff.rfl) ?_ (fun _ _ held => held)
      (.inUse held whole allocated (quiet_goto quiet rfl))
    · rintro stored (stands | stands) <;> cases stands
    · intro uses
      cases uses
  · have zero : shared.mRefCounter = 0 := by
      rw [counted, unheld]
      rfl
    rw [pc] at ending
    rw [if_pos zero, touch_allocated allocated]
    exact guarded.finishes unheld allocated others ⟨[], rfl, ending⟩ owned
      ⟨fun _ => owned, fun _ => rfl⟩ (.inl rfl)

theorem Guarded.releases (guarded : Guarded shared) {part : Part} {rest : List Part}
    (pc : shared.place thread = .releasing (part :: rest)) :
    Guarded { shared.touch.goto thread (.releasing rest) with
      released := shared.released ++ if part ∈ shared.parts then [part] else [] } := by
  have owned := (guarded.exclusive thread).mp (by rw [pc]; rfl)
  obtain ⟨unheld, allocated, ending, others⟩ := guarded.alone (by rw [pc]; rfl)
  rw [pc] at ending
  obtain ⟨done, split, whole⟩ := ending
  rw [touch_allocated allocated]
  refine guarded.finishes unheld allocated others ⟨done ++ [part], ?_, ?_⟩ owned
    ⟨fun _ => owned, fun _ => rfl⟩ (.inl rfl)
  · rw [split, List.append_assoc]
    rfl
  · rw [whole, List.filter_append]
    by_cases present : part ∈ shared.parts <;> simp [present]

theorem Guarded.emptied (guarded : Guarded shared) (pc : shared.place thread = .releasing []) :
    Guarded (shared.goto thread (.unlockingDrop true)) := by
  have owned := (guarded.exclusive thread).mp (by rw [pc]; rfl)
  obtain ⟨unheld, allocated, ending, others⟩ := guarded.alone (by rw [pc]; rfl)
  rw [pc] at ending
  obtain ⟨done, split, whole⟩ := ending
  rw [List.append_nil] at split
  have all : shared.released = allParts shared.parts := by rw [whole, allParts, split]
  exact guarded.finishes unheld allocated others all owned ⟨fun _ => owned, fun _ => rfl⟩
    (.inl rfl)

theorem Guarded.unlocks (guarded : Guarded shared) {deleteCon : Bool}
    (pc : shared.place thread = .unlockingDrop deleteCon) :
    Guarded { shared.touch.goto thread (.freeing deleteCon) with mutex := none } := by
  have owned := (guarded.exclusive thread).mp (by rw [pc]; rfl)
  cases deleteCon with
  | false =>
      rcases guarded.runner (by rw [pc]; rfl) with ⟨held, whole, allocated, quiet⟩ |
        ⟨_, _, ending, _⟩
      · rw [touch_allocated allocated]
        exact guarded.leaves owned rfl (.inUse held whole allocated (quiet_goto quiet rfl))
      · rw [pc] at ending
        cases ending
  | true =>
      obtain ⟨unheld, allocated, ending, others⟩ := guarded.alone (by rw [pc]; rfl)
      rw [pc] at ending
      rw [touch_allocated allocated]
      refine guarded.finishes unheld allocated others ending owned ?_ (.inr rfl)
      constructor
      · intro holds
        cases holds
      · intro held
        cases held

theorem Guarded.frees (guarded : Guarded shared) {deleteCon : Bool}
    (pc : shared.place thread = .freeing deleteCon) :
    Guarded { shared.goto thread .outside with
      freed := if deleteCon then shared.freed + 1 else shared.freed } := by
  have unlocked : shared.mutex ≠ some thread := by
    intro owned
    have holds := (guarded.exclusive thread).mpr owned
    rw [pc] at holds
    cases holds
  refine guarded.moves rfl guarded.faultless guarded.counted ?_ (.inl rfl) ?_
    (fun _ _ => Iff.rfl) ?_ (fun _ _ held => held) ?_
  · rintro stored (stands | stands) <;> cases stands
  · constructor
    · intro holds
      cases holds
    · intro held
      exact (unlocked held).elim
  · intro uses
    cases uses
  · cases deleteCon with
    | false =>
        cases guarded.stage with
        | inUse held whole allocated quiet =>
            exact .inUse held whole allocated (quiet_goto quiet rfl)
        | last final unheld allocated ending others =>
            have apart : final ≠ thread := by
              rintro rfl
              rw [pc] at ending
              cases ending
            refine .last final unheld allocated ?_ ?_
            · simp only [goto_there _ apart]
              exact ending
            · exact fun other away => rests_goto rfl fun _ => others other away
        | gone unheld freed all others =>
            exact .gone unheld freed all fun other => rests_goto rfl fun _ => others other
    | true =>
        obtain ⟨unheld, allocated, ending, others⟩ := guarded.alone (by rw [pc]; rfl)
        rw [pc] at ending
        exact .gone unheld (by simp [allocated]) ending fun other => rests_goto rfl (others other)

/-- A call begins, or hands its reference back to its thread at the end. -/
theorem Guarded.enters (guarded : Guarded shared) {pc : Pc} (member : thread ∈ shared.holders)
    (unlocked : shared.mutex ≠ some thread) (outside : pc.holdsMutex = false)
    (quietHere : pc.ends = false)
    (plain : ∀ value, pc ≠ .storingDrop value ∧ pc ≠ .storingIncr value) :
    Guarded (shared.goto thread pc) := by
  obtain ⟨whole, allocated, quiet⟩ := guarded.opened (holders_occupied member)
  refine guarded.moves rfl guarded.faultless guarded.counted ?_ (.inl rfl) ?_
    (fun _ _ => Iff.rfl) (fun _ => member) (fun _ _ held => held)
    (.inUse (holders_occupied member) whole allocated (quiet_goto quiet quietHere))
  · rintro stored (stands | stands)
    · exact ((plain stored).1 stands).elim
    · exact ((plain stored).2 stands).elim
  · constructor
    · intro holds
      rw [outside] at holds
      cases holds
    · intro held
      exact (unlocked held).elim

theorem Guarded.hands (guarded : Guarded shared) {giver taker : Thread}
    (free : shared.place giver = .outside) (member : giver ∈ shared.holders) :
    Guarded { shared with holders := taker :: shared.holders.erase giver } where
  faultless := guarded.faultless
  counted := by
    have counted := guarded.counted
    have shorter := List.length_erase_of_mem member
    have positive := List.length_pos_of_mem member
    simp only [List.length_cons]
    omega
  loaded := guarded.loaded
  exclusive := guarded.exclusive
  referenced := by
    intro other uses
    have held := guarded.referenced other uses
    have apart : other ≠ giver := by
      rintro rfl
      simp only [free] at uses
      cases uses
    exact List.mem_cons_of_mem _ ((List.mem_erase_of_ne apart).mpr held)
  stage := by
    obtain ⟨whole, allocated, quiet⟩ := guarded.opened (holders_occupied member)
    exact .inUse (List.cons_ne_nil taker (shared.holders.erase giver)) whole allocated quiet

end Moves

section Runs
variable {Thread : Type} [DecidableEq Thread] {shared next : Shared Thread} {thread : Thread}

omit [DecidableEq Thread] in
theorem locks_exclusively (unlocked : shared.mutex = none) :
    ∀ other, other ≠ thread → (some thread = some other ↔ shared.mutex = some other) := by
  intro other apart
  rw [unlocked]
  constructor
  · intro same
    exact (apart (Option.some.inj same).symm).elim
  · intro held
    cases held

theorem Guarded.run (guarded : Guarded shared) (runs : runStatement shared thread = some next) :
    Guarded next := by
  cases pc : shared.place thread with
  | outside =>
      simp only [runStatement, pc] at runs
      cases runs
  | marking =>
      simp only [runStatement, pc] at runs
      cases runs
      exact guarded.goes (by rw [pc]; rfl) rfl (by rintro _ (stands | stands) <;> cases stands)
        (by have := guarded.exclusive thread; rw [pc] at this; exact this) fun _ _ => Iff.rfl
  | lockingDrop | lockingIncr =>
      simp only [runStatement, pc] at runs
      split at runs
      · rename_i unlocked
        cases runs
        exact guarded.goes (by rw [pc]; rfl) rfl (by rintro _ (stands | stands) <;> cases stands)
          ⟨fun _ => rfl, fun _ => rfl⟩ (locks_exclusively unlocked)
      · cases runs
  | loadingDrop | loadingIncr =>
      simp only [runStatement, pc] at runs
      cases runs
      have owned := (guarded.exclusive thread).mp (by rw [pc]; rfl)
      refine guarded.goes (by rw [pc]; rfl) rfl ?_ ⟨fun _ => owned, fun _ => rfl⟩
        fun _ _ => Iff.rfl
      rintro value (stands | stands) <;> cases stands
      rfl
  | storingDrop loaded =>
      simp only [runStatement, pc] at runs
      cases runs
      exact guarded.drops pc
  | storingIncr loaded =>
      simp only [runStatement, pc] at runs
      cases runs
      exact guarded.raises pc
  | testing =>
      have tested := guarded.tests pc
      simp only [runStatement, pc] at runs
      split at runs <;> rename_i zero
      · rw [if_pos zero] at tested
        cases runs
        exact tested
      · rw [if_neg zero] at tested
        cases runs
        exact tested
  | releasing rest =>
      cases rest with
      | nil =>
          simp only [runStatement, pc] at runs
          cases runs
          exact guarded.emptied pc
      | cons part rest =>
          simp only [runStatement, pc] at runs
          cases runs
          exact guarded.releases pc
  | unlockingDrop deleteCon =>
      simp only [runStatement, pc] at runs
      cases runs
      exact guarded.unlocks pc
  | freeing deleteCon =>
      simp only [runStatement, pc] at runs
      cases runs
      exact guarded.frees pc
  | unlockingIncr =>
      simp only [runStatement, pc] at runs
      cases runs
      have member := guarded.referenced thread (by rw [pc]; rfl)
      have owned := (guarded.exclusive thread).mp (by rw [pc]; rfl)
      obtain ⟨whole, allocated, quiet⟩ := guarded.opened (holders_occupied member)
      rw [touch_allocated allocated]
      exact guarded.leaves owned rfl
        (.inUse (holders_occupied member) whole allocated (quiet_goto quiet rfl))

theorem Guarded.step (guarded : Guarded shared) {label : Label Thread}
    (stepped : step shared label = some next) : Guarded next := by
  have outsideMutex : ∀ thread, shared.place thread = .outside → shared.mutex ≠ some thread := by
    intro thread free owned
    have holds := (guarded.exclusive thread).mpr owned
    rw [free] at holds
    cases holds
  cases label with
  | destroy thread | incr thread =>
      simp only [ReferenceStatements.step] at stepped
      split at stepped
      · rename_i may
        cases stepped
        refine guarded.enters may.2 (outsideMutex thread may.1) rfl rfl fun value => ⟨?_, ?_⟩ <;>
          intro impossible <;> cases impossible
      · cases stepped
  | use thread part =>
      simp only [ReferenceStatements.step] at stepped
      split at stepped
      · rename_i may
        cases stepped
        obtain ⟨whole, allocated, quiet⟩ := guarded.opened (holders_occupied may.2)
        have unharmed : shared.freed = 0 ∧ part ∉ shared.released := by
          rw [whole]
          exact ⟨allocated, List.not_mem_nil⟩
        rw [if_pos unharmed]
        exact guarded
      · cases stepped
  | hand giver taker =>
      simp only [ReferenceStatements.step] at stepped
      split at stepped
      · rename_i may
        cases stepped
        exact guarded.hands may.1 may.2
      · cases stepped
  | run thread => exact guarded.run stepped

theorem step_parts {label : Label Thread} (stepped : step shared label = some next) :
    next.parts = shared.parts := by
  cases label with
  | destroy | incr | use | hand =>
      simp only [ReferenceStatements.step] at stepped
      split at stepped <;> cases stepped
      rfl
  | run thread =>
      simp only [ReferenceStatements.step, runStatement] at stepped
      split at stepped
      case h_3 | h_6 | h_11 => split at stepped <;> cases stepped <;> rfl
      all_goals
        cases stepped
        try rfl

/-- Only a taken mutex makes a thread wait. -/
theorem runs_on (busy : shared.place thread ≠ .outside)
    (free : shared.mutex = none ∨ (shared.place thread).holdsMutex = true) :
    ∃ next, runStatement shared thread = some next := by
  cases pc : shared.place thread with
  | outside => exact (busy pc).elim
  | lockingDrop | lockingIncr =>
      rcases free with unlocked | holds
      · simp only [runStatement, pc, if_pos unlocked]
        exact ⟨_, rfl⟩
      · rw [pc] at holds
        cases holds
  | testing =>
      simp only [runStatement, pc]
      split <;> exact ⟨_, rfl⟩
  | releasing rest =>
      cases rest <;> simp only [runStatement, pc] <;> exact ⟨_, rfl⟩
  | _ =>
      simp only [runStatement, pc]
      exact ⟨_, rfl⟩

/-- The most statements that are left of a call. -/
def Pc.left : Pc → Nat
  | .outside => 0
  | .freeing _ | .unlockingIncr => 1
  | .unlockingDrop _ | .storingIncr _ => 2
  | .loadingIncr => 3
  | .lockingIncr => 4
  | .releasing rest => rest.length + 3
  | .testing => 10
  | .storingDrop _ => 11
  | .loadingDrop => 12
  | .lockingDrop => 13
  | .marking => 14

theorem run_left (runs : runStatement shared thread = some next) :
    (next.place thread).left < (shared.place thread).left := by
  cases pc : shared.place thread with
  | outside =>
      simp only [runStatement, pc] at runs
      cases runs
  | lockingDrop | lockingIncr =>
      simp only [runStatement, pc] at runs
      split at runs <;> cases runs
      simp [Pc.left]
  | testing =>
      simp only [runStatement, pc] at runs
      split at runs <;> cases runs <;> simp [Pc.left, teardownOrder]
  | releasing rest =>
      cases rest <;> simp only [runStatement, pc] at runs <;> cases runs <;> simp [Pc.left]
  | _ =>
      simp only [runStatement, pc] at runs
      cases runs
      simp [Pc.left]

theorem run_mutex (runs : runStatement shared thread = some next)
    (mine : shared.mutex = none ∨ shared.mutex = some thread) :
    next.mutex = none ∨ next.mutex = some thread := by
  cases pc : shared.place thread with
  | outside =>
      simp only [runStatement, pc] at runs
      cases runs
  | lockingDrop | lockingIncr =>
      simp only [runStatement, pc] at runs
      split at runs <;> cases runs
      exact .inr rfl
  | testing =>
      simp only [runStatement, pc] at runs
      split at runs <;> cases runs <;> exact mine
  | releasing rest =>
      cases rest <;> simp only [runStatement, pc] at runs <;> cases runs <;> exact mine
  | unlockingDrop | unlockingIncr =>
      simp only [runStatement, pc] at runs
      cases runs
      exact .inl rfl
  | _ =>
      simp only [runStatement, pc] at runs
      cases runs
      exact mine

/-- The threads run on with their calls; no call begins, and nobody uses the object otherwise. -/
def Onward (_ : Shared Thread) : Label Thread → Prop
  | .run _ => True
  | .destroy _ | .incr _ | .use .. | .hand .. => False

/-- A thread that need not wait for the mutex ends its call by itself. -/
theorem Guarded.ends_alone (guarded : Guarded shared) (thread : Thread)
    (mine : shared.mutex = none ∨ shared.mutex = some thread) :
    ∃ later, GuardedRun ReferenceStatements.step Onward shared later ∧
      later.place thread = .outside ∧ later.mutex = none := by
  induction left : (shared.place thread).left using Nat.strongRecOn generalizing shared with
  | ind left ih =>
      by_cases outside : shared.place thread = .outside
      · refine ⟨shared, .refl, outside, mine.resolve_right fun owned => ?_⟩
        have holds := (guarded.exclusive thread).mpr owned
        rw [outside] at holds
        cases holds
      · obtain ⟨next, runs⟩ := runs_on outside (mine.imp_right (guarded.exclusive thread).mpr)
        have fewer := left ▸ run_left runs
        obtain ⟨later, run, ended⟩ := ih _ fewer (guarded.run runs) (run_mutex runs mine) rfl
        exact ⟨later, .trans (.next (.run thread) .refl trivial runs) run, ended⟩

/-- Whoever has the mutex ends its call first. -/
theorem Guarded.call_ends (guarded : Guarded shared) (thread : Thread) :
    ∃ later, GuardedRun ReferenceStatements.step Onward shared later ∧
      later.place thread = .outside := by
  cases owner : shared.mutex with
  | none =>
      obtain ⟨later, run, ended, _⟩ := guarded.ends_alone thread (.inl owner)
      exact ⟨later, run, ended⟩
  | some other =>
      obtain ⟨middle, front, _, unlocked⟩ := guarded.ends_alone other (.inr owner)
      have still : Guarded middle := front.invariant Guarded
        (fun _ _ _ held _ stepped => held.step stepped) guarded
      obtain ⟨later, back, ended, _⟩ := still.ends_alone thread (.inl unlocked)
      exact ⟨later, front.trans back, ended⟩

theorem run_guarded {creator : Thread} {parts : List Part}
    (run : Run step (.created creator parts) shared) : Guarded shared ∧ shared.parts = parts := by
  refine run.invariant_with Guarded (fun shared => shared.parts = parts) ?_ ?_
    (created_guarded creator parts) rfl
  · intro before label after guarded _ stepped
    exact guarded.step stepped
  · intro before label after _ same _ stepped
    exact (step_parts stepped).trans same

end Runs

section Results
variable {Thread : Type} [DecidableEq Thread]

-- Nobody touches a freed object, the last reference releases it once, and every call can be ended.
theorem sharing_safe (creator : Thread) (parts : List Part) {last : Shared Thread}
    (run : Run step (.created creator parts) last) :
    last.faults = 0 ∧ last.freed ≤ 1 ∧ last.mRefCounter = last.holders.length ∧
      (last.holders ≠ [] → last.freed = 0 ∧ last.released = []) ∧
      (last.holders = [] → (∀ thread, last.place thread = .outside) →
        last.freed = 1 ∧ last.released = allParts parts) ∧
      ∀ thread, ∃ later, GuardedRun step Onward last later ∧ later.place thread = .outside := by
  obtain ⟨guarded, rfl⟩ := run_guarded run
  refine ⟨guarded.faultless, ?_, guarded.counted, ?_, ?_, guarded.call_ends⟩
  · cases guarded.stage with
    | inUse _ _ allocated | last _ _ allocated => omega
    | gone _ freed => omega
  · intro held
    obtain ⟨whole, allocated, _⟩ := guarded.opened held
    exact ⟨allocated, whole⟩
  · intro unheld outside
    cases guarded.stage with
    | inUse held => exact (held unheld).elim
    | last thread _ _ ending =>
        rw [outside] at ending
        cases ending
    | gone _ freed all => exact ⟨freed, all⟩

/-- The creator counts a second reference, hands it on, and both destroy the object at once. -/
def bothDestroy : List (Label Bool) :=
  [.incr true, .run true, .run true, .run true, .run true, .hand true false, .destroy true,
    .use false .outQueue, .destroy false] ++ List.replicate 2 (.run true) ++ [.run false] ++
    List.replicate 5 (.run true) ++ List.replicate 13 (.run false)

theorem both_destroyed :
    ∃ last : Shared Bool, last.holders = [] ∧ last.faults = 0 ∧ last.freed = 1 ∧
      last.released = [.sockDesc, .inQueue, .outQueue] := by
  obtain ⟨last, run, tested⟩ := replayed step (fun _ _ => True)
    (Shared.created true [.outQueue, .inQueue, .sockDesc]) bothDestroy
    (fun last => last.holders = [] ∧ last.place true = .outside ∧ last.place false = .outside)
    (by decide)
  obtain ⟨unheld, outsideTrue, outsideFalse⟩ := of_decide_eq_true tested
  obtain ⟨faultless, _, _, _, gone, _⟩ := sharing_safe true [.outQueue, .inQueue, .sockDesc] run
  obtain ⟨freed, all⟩ := gone unheld fun thread => by cases thread <;> assumption
  exact ⟨last, unheld, faultless, freed, all⟩

end Results

end Libasock.ReferenceStatements
