import Libasock.GuardedRuns

/-!
A machine whose every step uses up some of a natural number: its runs are no
longer than the number says, and each of them can be carried on to a state that
allows no step.
-/

namespace Libasock.MeasuredRuns
open GuardedRuns

universe u v
variable {State : Type u} {Label : Type v} {step : State → Label → Option State}
  {inv : State → Prop} {measure : State → Nat}

/-- Every step from a state of the invariant keeps it and uses up some of the measure. -/
structure Consumes (step : State → Label → Option State) (inv : State → Prop)
    (measure : State → Nat) : Prop where
  kept : ∀ before label after, inv before → step before label = some after → inv after
  less : ∀ before label after, inv before → step before label = some after →
    measure after < measure before

def Stuck (step : State → Label → Option State) (state : State) : Prop :=
  ∀ label, step state label = none

variable (consumes : Consumes step inv measure)
include consumes

theorem exec_kept {first last : State} {labels : List Label} (held : inv first)
    (played : exec step first labels = some last) : inv last := by
  induction labels generalizing first with
  | nil =>
      cases played
      exact held
  | cons label rest ih =>
      obtain ⟨next, stepped, tail⟩ := exec_cons_some played
      exact ih (consumes.kept first label next held stepped) tail

theorem exec_bounded {first last : State} {labels : List Label} (held : inv first)
    (played : exec step first labels = some last) :
    measure last + labels.length ≤ measure first := by
  induction labels generalizing first with
  | nil =>
      cases played
      exact Nat.le_refl _
  | cons label rest ih =>
      obtain ⟨next, stepped, tail⟩ := exec_cons_some played
      have later := ih (consumes.kept first label next held stepped) tail
      have now := consumes.less first label next held stepped
      rw [List.length_cons]
      omega

theorem ends_stuck {first : State} (held : inv first) :
    ∃ labels last, exec step first labels = some last ∧ Stuck step last := by
  induction left : measure first using Nat.strongRecOn generalizing first with
  | ind amount ih =>
      by_cases stuck : Stuck step first
      · exact ⟨[], first, rfl, stuck⟩
      · simp only [Stuck, not_forall] at stuck
        obtain ⟨label, enabled⟩ := stuck
        obtain ⟨next, stepped⟩ := Option.ne_none_iff_exists'.mp enabled
        have less := consumes.less first label next held stepped
        rw [left] at less
        obtain ⟨labels, last, played, stops⟩ :=
          ih (measure next) less (consumes.kept first label next held stepped) rfl
        refine ⟨label :: labels, last, ?_, stops⟩
        simp only [exec, stepped, Option.bind_some]
        exact played

end Libasock.MeasuredRuns
