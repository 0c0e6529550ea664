import Mathlib.Data.List.Pairwise
import Mathlib.Data.List.Count

/-!
A list of attempts, each under a key, with `true` for one that failed. The keys
may repeat. `OnlyLastSucceeds` says that nothing is tried again after a success;
then each key has one success at most, and it has the last word. The module
names no particular program.
-/

namespace Libasock.KeyedAttempts

universe u
variable {Key : Type u} [DecidableEq Key]

/-- What the last attempt under the key has come to. -/
def lastFails (key : Key) : List (Key × Bool) → Option Bool
  | [] => none
  | attempt :: rest =>
      (lastFails key rest).or (if attempt.1 = key then some attempt.2 else none)

def OnlyLastSucceeds (attempts : List (Key × Bool)) : Prop :=
  attempts.Pairwise fun earlier later => earlier.1 = later.1 → earlier.2 = true

/-- The key ends with its one success, or without any. -/
def Settled (key : Key) (attempts : List (Key × Bool)) : Prop :=
  (lastFails key attempts = some false ∧ attempts.count (key, false) = 1) ∨
    (lastFails key attempts = some true ∧ attempts.count (key, false) = 0)

variable {key : Key} {attempts : List (Key × Bool)}

theorem lastFails_none : lastFails key attempts = none ↔ key ∉ attempts.map Prod.fst := by
  induction attempts with
  | nil => simp [lastFails]
  | cons attempt rest ih =>
      by_cases same : attempt.1 = key
      · simp [lastFails, same]
      · simp [lastFails, same, ih, Ne.symm same]

theorem untried_count (untried : key ∉ attempts.map Prod.fst) (verdict : Bool) :
    attempts.count (key, verdict) = 0 := by
  apply List.count_eq_zero.mpr
  intro member
  exact untried (List.mem_map.mpr ⟨_, member, rfl⟩)

theorem last_counted {verdict : Bool} (last : lastFails key attempts = some verdict) :
    0 < attempts.count (key, verdict) := by
  induction attempts with
  | nil => cases last
  | cons attempt rest ih =>
      rw [lastFails, Option.or_eq_some_iff] at last
      rcases last with later | ⟨_, here⟩
      · exact Nat.lt_of_lt_of_le (ih later) List.count_le_count_cons
      · split at here
        · rename_i same
          cases here
          rw [← same]
          simp
        · cases here

theorem verdicts_count :
    (attempts.map Prod.fst).count key =
      attempts.count (key, false) + attempts.count (key, true) := by
  induction attempts with
  | nil => rfl
  | cons attempt rest ih =>
      obtain ⟨other, verdict⟩ := attempt
      simp only [List.map_cons, List.count_cons, ih]
      cases verdict <;> by_cases same : other = key <;> simp [same] <;> omega

/-- A key that has no success ends with a failure. -/
theorem unsuccessful_last (tried : key ∈ attempts.map Prod.fst)
    (uncounted : attempts.count (key, false) = 0) : lastFails key attempts = some true := by
  cases last : lastFails key attempts with
  | none => exact absurd tried (lastFails_none.mp last)
  | some verdict =>
      cases verdict with
      | true => rfl
      | false => exact absurd uncounted (Nat.ne_of_gt (last_counted last))

section Order

variable {attempt : Key × Bool} {rest : List (Key × Bool)}

theorem last_later (tried : key ∈ rest.map Prod.fst) :
    lastFails key (attempt :: rest) = lastFails key rest := by
  cases last : lastFails key rest with
  | none => exact absurd tried (lastFails_none.mp last)
  | some verdict => simp [lastFails, last]

/-- Once a key is tried again, the earlier attempt was not its success. -/
theorem settled_earlier (settled : Settled attempt.1 (attempt :: rest))
    (tried : attempt.1 ∈ rest.map Prod.fst) : attempt.2 = true := by
  obtain ⟨key, verdict⟩ := attempt
  cases verdict with
  | true => rfl
  | false =>
      rw [Settled, last_later tried, List.count_cons_self] at settled
      rcases settled with ⟨last, once⟩ | ⟨_, never⟩
      · have later := last_counted last
        omega
      · omega

theorem onlyLast_settled :
    OnlyLastSucceeds attempts ↔ ∀ key ∈ attempts.map Prod.fst, Settled key attempts := by
  induction attempts with
  | nil => simp [OnlyLastSucceeds]
  | cons attempt rest ih =>
      unfold OnlyLastSucceeds at ih ⊢
      rw [List.pairwise_cons, ih]
      constructor
      · rintro ⟨first, later⟩ key tried
        by_cases again : key ∈ rest.map Prod.fst
        · have unsuccessful : attempt ≠ (key, false) := by
            rintro rfl
            obtain ⟨other, member, same⟩ := List.mem_map.mp again
            cases first other member same.symm
          rw [Settled, last_later again, List.count_cons_of_ne unsuccessful]
          exact later key again
        · have same : attempt.1 = key := by
            rcases List.mem_cons.mp (List.map_cons ▸ tried) with same | inRest
            · exact same.symm
            · exact absurd inRest again
          have untried := untried_count again false
          obtain ⟨other, verdict⟩ := attempt
          cases same
          cases verdict
          · exact .inl ⟨by simp [lastFails, lastFails_none.mpr again], by
              rw [List.count_cons_self, untried]⟩
          · exact .inr ⟨by simp [lastFails, lastFails_none.mpr again], by
              rw [List.count_cons_of_ne (by simp), untried]⟩
      · intro settled
        have first : attempt.1 ∈ rest.map Prod.fst → attempt.2 = true :=
          settled_earlier (settled attempt.1 (by simp))
        refine ⟨fun other member same => first (List.mem_map.mpr ⟨other, member, same.symm⟩), ?_⟩
        intro key again
        have here := settled key (List.mem_cons_of_mem _ again)
        have unsuccessful : attempt ≠ (key, false) := by
          rintro rfl
          cases first again
        rw [Settled, last_later again, List.count_cons_of_ne unsuccessful] at here
        exact here

end Order

end Libasock.KeyedAttempts
