import Mathlib.Logic.Basic

/-!
Runs of a labelled machine whose step is a partial function. The label carries
every choice the environment makes, so a history of labels can be replayed.
`GuardedRun` collects the runs whose steps all meet a condition on the state
before the step and on the label. The module names no particular machine.
-/

namespace Libasock.GuardedRuns

universe u v
variable {State : Type u} {Label : Type v}

/-- Replays a history; `none` as soon as one label is not enabled. -/
def exec (step : State → Label → Option State) : State → List Label → Option State
  | state, [] => some state
  | state, label :: rest => (step state label).bind fun next => exec step next rest

inductive GuardedRun (step : State → Label → Option State) (guard : State → Label → Prop)
    (first : State) : State → Prop where
  | refl : GuardedRun step guard first first
  | next {middle last : State} (label : Label) :
      GuardedRun step guard first middle → guard middle label →
      step middle label = some last → GuardedRun step guard first last

/-- Every run, with no condition on its steps. -/
abbrev Run (step : State → Label → Option State) (first last : State) : Prop :=
  GuardedRun step (fun _ _ => True) first last

variable {step : State → Label → Option State} {guard : State → Label → Prop}

/-- What holds at the start and survives every guarded step holds at the end of every run. -/
theorem GuardedRun.invariant (inv : State → Prop)
    (kept : ∀ before label after, inv before → guard before label →
      step before label = some after → inv after)
    {first last : State} (run : GuardedRun step guard first last) (start : inv first) :
    inv last := by
  induction run with
  | refl => exact start
  | next label _ allowed stepped ih => exact kept _ label _ ih allowed stepped

/-- A second invariant may use the first one at every state of the run. -/
theorem GuardedRun.invariant_with (base inv : State → Prop)
    (baseKept : ∀ before label after, base before → guard before label →
      step before label = some after → base after)
    (kept : ∀ before label after, base before → inv before → guard before label →
      step before label = some after → inv after)
    {first last : State} (run : GuardedRun step guard first last)
    (baseStart : base first) (start : inv first) : base last ∧ inv last := by
  apply run.invariant (fun state => base state ∧ inv state) _ ⟨baseStart, start⟩
  intro before label after held allowed stepped
  exact ⟨baseKept before label after held.1 allowed stepped,
    kept before label after held.1 held.2 allowed stepped⟩

theorem GuardedRun.weaken {weaker : State → Label → Prop}
    (implied : ∀ state label, guard state label → weaker state label)
    {first last : State} (run : GuardedRun step guard first last) :
    GuardedRun step weaker first last := by
  induction run with
  | refl => exact .refl
  | next label _ allowed stepped ih => exact .next label ih (implied _ label allowed) stepped

theorem GuardedRun.trans {first middle last : State}
    (front : GuardedRun step guard first middle) (back : GuardedRun step guard middle last) :
    GuardedRun step guard first last := by
  induction back with
  | refl => exact front
  | next label _ allowed stepped ih => exact .next label ih allowed stepped

/-- A step that is the users' or the worker's, who makes none once something it needs is broken. -/
theorem side_cases {users broken : Prop} [Decidable users] [Decidable broken]
    {used worked : Option State} {after : State}
    (stepped : (if users then used else if broken then none else worked) = some after) :
    users ∧ used = some after ∨ ¬ users ∧ worked = some after := by
  split at stepped
  case isTrue isUsers => exact .inl ⟨isUsers, stepped⟩
  case isFalse isWorkers =>
    split at stepped
    · cases stepped
    · exact .inr ⟨isWorkers, stepped⟩

section Replay

variable (step guard) in
/-- The machine that refuses a label the guard does not allow. -/
def guarded [∀ state label, Decidable (guard state label)] (state : State) (label : Label) :
    Option State :=
  if guard state label then step state label else none

theorem exec_cons_some {state last : State} {label : Label} {rest : List Label}
    (played : exec step state (label :: rest) = some last) :
    ∃ next, step state label = some next ∧ exec step next rest = some last := by
  simpa [exec, Option.bind_eq_some_iff] using played

variable [∀ state label, Decidable (guard state label)]

theorem guarded_some {before after : State} {label : Label}
    (stepped : guarded step guard before label = some after) :
    guard before label ∧ step before label = some after := by
  unfold guarded at stepped
  split at stepped
  case isTrue allowed => exact ⟨allowed, stepped⟩
  case isFalse => cases stepped

theorem exec_guarded {first last : State} {history : List Label}
    (played : exec (guarded step guard) first history = some last) :
    GuardedRun step guard first last := by
  induction history generalizing first with
  | nil =>
      have same : first = last := by simpa [exec] using played
      subst same
      exact .refl
  | cons label rest ih =>
      obtain ⟨next, stepped, tail⟩ := exec_cons_some played
      obtain ⟨allowed, stepped⟩ := guarded_some stepped
      exact GuardedRun.trans (.next label .refl allowed stepped) (ih tail)

variable (step guard) in
/-- A history that can be replayed gives a run to a state with the tested property. -/
theorem replayed (first : State) (history : List Label) (test : State → Bool)
    (tested : (exec (guarded step guard) first history).any test = true) :
    ∃ last, GuardedRun step guard first last ∧ test last = true := by
  cases played : exec (guarded step guard) first history with
  | none => simp [played] at tested
  | some last => exact ⟨last, exec_guarded played, by simpa [played] using tested⟩

end Replay

end Libasock.GuardedRuns
