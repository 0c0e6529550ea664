import Libasock.ByteBlocks

/-!
The C loop `for (size_t i = size - 1; i < size; --i)`, which counts an unsigned
index down and ends when it wraps, over any state. `walk_invariant` is its rule,
and `walkFrom_carries` the one that takes the end for granted;
`walk_filters` is the rule for a body that takes the current item, and no other,
out of the list it walks over. The module names no particular program.
-/

namespace Libasock.DownwardLoops
open ByteBlocks

universe u
variable {State : Type} {Item : Type u}

/-- Tests and turns of the loop from the index `index` on. -/
def walkFrom (body : Nat → State → Outcome State) (size : Nat) :
    Nat → Nat → State → Outcome State
  | 0, _, _ => .error .diverges
  | fuel + 1, index, state =>
      if index < size then do
        let next ← body index state
        walkFrom body size fuel (subSize index 1) next
      else .ok state

def walk (fuel : Nat) (body : Nat → State → Outcome State) (size : Nat) (state : State) :
    Outcome State :=
  walkFrom body size fuel (subSize size 1) state

theorem subSize_succ {index : Nat} (fits : index + 1 < sizeBound) : subSize (index + 1) 1 = index :=
  subSize_exact (by omega) fits

/-- Below zero the index is larger than every size. -/
theorem subSize_zero : subSize 0 1 = sizeBound - 1 := by decide

section Rules

variable {body : Nat → State → Outcome State} {size fuel : Nat} {first : State}

/-- The invariant speaks of the number of turns that are left. -/
theorem walkFrom_invariant (inv : Nat → State → Prop) (fits : size < sizeBound) {left : Nat}
    (turns : ∀ index < left, ∀ state, inv (index + 1) state →
      ∃ next, body index state = .ok next ∧ inv index next)
    (bounded : left ≤ size) (enough : left < fuel) (start : inv left first) :
    ∃ last, walkFrom body size fuel (subSize left 1) first = .ok last ∧ inv 0 last := by
  induction left generalizing fuel first with
  | zero =>
      -- no turn is left: the index has wrapped
      obtain ⟨fuel, rfl⟩ := Nat.exists_eq_succ_of_ne_zero (Nat.ne_of_gt enough)
      have wrapped : ¬ subSize 0 1 < size := by
        rw [subSize_zero]
        omega
      exact ⟨first, if_neg wrapped, start⟩
  | succ left ih =>
      obtain ⟨fuel, rfl⟩ := Nat.exists_eq_succ_of_ne_zero (Nat.ne_of_gt (Nat.zero_lt_of_lt enough))
      obtain ⟨next, turned, kept⟩ := turns left (Nat.lt_succ_self left) first start
      obtain ⟨last, walks, ends⟩ := ih (fun index below => turns index (Nat.lt_succ_of_lt below))
        (Nat.le_of_succ_le bounded) (Nat.lt_of_succ_lt_succ enough) kept
      have below : left < size := bounded
      refine ⟨last, ?_, ends⟩
      rw [walkFrom, subSize_succ (Nat.lt_of_le_of_lt bounded fits), if_pos below, turned]
      exact walks

theorem walk_invariant (inv : Nat → State → Prop) (fits : size < sizeBound)
    (turns : ∀ index < size, ∀ state, inv (index + 1) state →
      ∃ next, body index state = .ok next ∧ inv index next)
    (enough : size < fuel) (start : inv size first) :
    ∃ last, walk fuel body size first = .ok last ∧ inv 0 last :=
  walkFrom_invariant inv fits turns (Nat.le_refl size) enough start

/-- The same rule for a loop that is known to end. -/
theorem walkFrom_carries (inv : Nat → State → Prop) (fits : size < sizeBound) {left : Nat}
    {last : State}
    (turns : ∀ index < left, ∀ state next, body index state = .ok next → inv (index + 1) state →
      inv index next)
    (bounded : left ≤ size) (walks : walkFrom body size fuel (subSize left 1) first = .ok last)
    (start : inv left first) : inv 0 last := by
  induction left generalizing fuel first with
  | zero =>
      have wrapped : ¬ subSize 0 1 < size := by
        rw [subSize_zero]
        omega
      cases fuel with
      | zero => cases walks
      | succ fuel =>
          rw [walkFrom, if_neg wrapped] at walks
          cases walks
          exact start
  | succ left ih =>
      have below : left < size := bounded
      rw [subSize_succ (Nat.lt_of_le_of_lt bounded fits)] at walks
      cases fuel with
      | zero => cases walks
      | succ fuel =>
          rw [walkFrom, if_pos below] at walks
          obtain ⟨next, turned, rest⟩ := sequenced walks
          exact ih (fun index inside => turns index (Nat.lt_succ_of_lt inside))
            (Nat.le_of_succ_le bounded) rest
            (turns left (Nat.lt_succ_self left) first next turned start)

/-- A body that keeps the current item or takes it out, and leaves the items before it in their
places, filters the list. `inv` may say what else has happened to the items of the list's end. -/
theorem walk_filters (items : State → List Item) (keep : Item → Bool) (original : List Item)
    (inv : List Item → State → Prop) (fits : original.length < sizeBound)
    (enough : original.length < fuel)
    (turns : ∀ front item done state, original = front ++ item :: done →
      items state = front ++ item :: done.filter keep → inv done state →
        ∃ next, body front.length state = .ok next ∧
          items next = front ++ (item :: done).filter keep ∧ inv (item :: done) next)
    (whole : items first = original) (start : inv [] first) :
    ∃ last, walk fuel body original.length first = .ok last ∧
      items last = original.filter keep ∧ inv original last := by
  let sofar := fun (index : Nat) (state : State) =>
    items state = original.take index ++ (original.drop index).filter keep ∧
      inv (original.drop index) state
  have turned : ∀ index < original.length, ∀ state, sofar (index + 1) state →
      ∃ next, body index state = .ok next ∧ sofar index next := by
    rintro index below state ⟨now, held⟩
    have split := List.drop_eq_getElem_cons below
    have shape : original = original.take index ++ original[index] :: original.drop (index + 1) := by
      rw [← split, List.take_append_drop]
    rw [List.take_succ_eq_append_getElem below, List.append_assoc, List.singleton_append] at now
    obtain ⟨next, runs, after, kept⟩ := turns _ _ _ state shape now held
    rw [List.length_take, Nat.min_eq_left (Nat.le_of_lt below)] at runs
    refine ⟨next, runs, ?_, ?_⟩
    · rw [after, split]
    · rw [split]
      exact kept
  have begun : sofar original.length first := by
    constructor
    · rw [whole, List.take_length, List.drop_length, List.filter_nil, List.append_nil]
    · rw [List.drop_length]
      exact start
  obtain ⟨last, walks, ends, kept⟩ := walk_invariant sofar fits turned enough begun
  exact ⟨last, walks, by simpa using ends, by simpa using kept⟩

end Rules

end Libasock.DownwardLoops
