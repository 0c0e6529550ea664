import Libasock.GuardedRuns
import Libasock.VectorRefinement

/-!
The assertion in `reallocate` over whole histories of a vector. Growth doubles
the capacity the vector has, so it takes a capacity that is not 0 and a product
inside `size_t`; and a refused growth leaves `NULL` behind, with a number of
items that would fill a block.
-/

namespace Libasock.VectorGrowth
open ByteBlocks GuardedRuns ReturnCodes VectorModel VectorRefinement

def step (vector : AsockVector) (op : Op) : Option AsockVector :=
  match perform vector op with
  | .ok result => some result.2
  | .error _ => none

/-- A push brings an item of the vector's width. When it grows the vector, `size_t` holds twice the
capacity and, if `realloc` grants a block, its bytes; and the only push to a vector without its
block is one that is refused again. -/
def Sustained (vector : AsockVector) : Op → Prop
  | .push item answer =>
      item.length = vector.mItemSize ∧
        (vector.mSize = vector.mCapacity → vector.mCapacity * 2 < sizeBound ∧
          (answer.isSome → vector.mItemSize * (vector.mCapacity * 2) < sizeBound)) ∧
        (vector.mData = [] → vector.mSize = vector.mCapacity ∧ answer = none)
  | .erase _ | .clear => True

/-- The assertion holds if the push gets to it, and the push appends its item or says that it
failed. -/
structure Answered (vector : AsockVector) (item : List Byte) (answer : Allocation) : Prop where
  asserted : vector.mSize = vector.mCapacity →
    vector.mCapacity < mulSize vector.mCapacity 2
  replies : ∃ code after, vector.push item answer = .ok (code, after) ∧
    (code = asockSuccess ∧ content after = content vector ++ [item] ∨ code = asockFailure)

/-- A valid vector, or one whose block a refused growth has lost. -/
def Sturdy (vector : AsockVector) : Prop :=
  Valid vector ∨ vector.mData = [] ∧ ∃ data, Valid { vector with mData := data }

section Pushes

variable {vector : AsockVector} {item : List Byte} {answer : Allocation}

theorem Sturdy.roomy (sturdy : Sturdy vector) : 1 ≤ vector.mCapacity := by
  rcases sturdy with valid | ⟨_, data, valid⟩
  · exact valid.roomy
  · exact valid.roomy

theorem Sturdy.lost (sturdy : Sturdy vector) : Sturdy (lost vector) := by
  rcases sturdy with valid | ⟨_, data, valid⟩
  · exact .inr ⟨rfl, vector.mData, valid⟩
  · exact .inr ⟨rfl, data, valid⟩

theorem doubling_asserted (sturdy : Sturdy vector) (inside : vector.mCapacity * 2 < sizeBound) :
    vector.mCapacity < mulSize vector.mCapacity 2 := by
  have roomy := sturdy.roomy
  rw [mulSize_exact inside]
  omega

theorem push_answered (sturdy : Sturdy vector)
    (sustained : Sustained vector (.push item answer)) :
    ∃ code after, vector.push item answer = .ok (code, after) ∧ Sturdy after ∧
      (code = asockSuccess ∧ content after = content vector ++ [item] ∨ code = asockFailure) := by
  obtain ⟨long, doubles, absent⟩ := sustained
  by_cases refused : vector.mSize = vector.mCapacity ∧ answer = none
  · obtain ⟨full, rfl⟩ := refused
    have asks := doubling_asserted sturdy (doubles full).1
    exact ⟨_, _, refused_push item full asks, sturdy.lost, .inr rfl⟩
  · rcases sturdy with valid | ⟨null, _⟩
    · -- a push that does not grow never asks, so it goes as with any answer
      have granted : ∃ given : Allocation, given.isSome ∧
          vector.push item answer = vector.push item given ∧
          (vector.mSize = vector.mCapacity →
            vector.mItemSize * (vector.mCapacity * 2) < sizeBound) := by
        by_cases full : vector.mSize = vector.mCapacity
        · have there : answer.isSome :=
            Option.isSome_iff_ne_none.mpr fun none => refused ⟨full, none⟩
          exact ⟨answer, there, rfl, fun _ => (doubles full).2 there⟩
        · refine ⟨some fun _ => 0, rfl, ?_, fun grows => absurd grows full⟩
          simp only [AsockVector.push, if_neg full]
      obtain ⟨given, there, same, bounded⟩ := granted
      obtain ⟨after, pushes, afterValid, appended, _⟩ := push_appends valid bounded long there
      exact ⟨_, after, same.trans pushes, .inl afterValid, .inl ⟨rfl, appended⟩⟩
    · exact absurd (absent null) refused

end Pushes

section Histories

variable {vector after : AsockVector}

/-- What moves inside `NULL` leaves `NULL`. -/
theorem memmove_null {dstPos srcPos size : Nat} {data : List Byte}
    (moves : memmoveWithin [] dstPos srcPos size = .ok data) : data = [] := by
  unfold memmoveWithin memcpy at moves
  split at moves
  · cases moves
    simp
  · cases moves

theorem erase_sturdy {index : Nat} {code : AsockReturnCode} (sturdy : Sturdy vector)
    (erases : vector.erase index = .ok (code, after)) : Sturdy after := by
  rcases sturdy with valid | ⟨null, block, valid⟩
  · by_cases live : index < vector.mSize
    · obtain ⟨next, runs, nextValid, _⟩ := erase_spec valid live
      rw [runs] at erases
      cases erases
      exact .inl nextValid
    · rw [erase_outside (by omega)] at erases
      cases erases
      exact .inl valid
  · unfold AsockVector.erase at erases
    split at erases
    · cases erases
      exact .inr ⟨null, block, valid⟩
    · rename_i live
      obtain ⟨data, moves, same⟩ := sequenced erases
      rw [null] at moves
      cases same
      have inside := capacity_inside valid
      have sized := valid.sized
      dsimp only at inside sized
      have fewer : subSize vector.mSize 1 ≤ vector.mCapacity := by
        rw [subSize_exact (by omega) (by omega)]
        omega
      exact .inr ⟨memmove_null moves, block,
        ⟨valid.width, valid.block, valid.inside, valid.roomy, fewer⟩⟩

theorem clear_sturdy (sturdy : Sturdy vector) : Sturdy vector.clear := by
  rcases sturdy with valid | ⟨null, block, valid⟩
  · exact .inl ⟨valid.width, valid.block, valid.inside, valid.roomy, Nat.zero_le _⟩
  · exact .inr ⟨null, block,
      ⟨valid.width, valid.block, valid.inside, valid.roomy, Nat.zero_le _⟩⟩

theorem step_sturdy {op : Op} (sturdy : Sturdy vector) (sustained : Sustained vector op)
    (stepped : step vector op = some after) : Sturdy after := by
  cases performs : perform vector op with
  | error fault => simp [step, performs] at stepped
  | ok result =>
      have same : result.2 = after := by simpa [step, performs] using stepped
      subst same
      cases op with
      | push item answer =>
          obtain ⟨code, next, pushes, nextSturdy, _⟩ := push_answered sturdy sustained
          rw [perform, pushes] at performs
          cases performs
          exact nextSturdy
      | erase index => exact erase_sturdy sturdy performs
      | clear =>
          cases performs
          exact clear_sturdy sturdy

end Histories

section Results

-- Capacity 0 is accepted and trips the assertion; any other one holds as long as sizes fit.
theorem vector_growth_asserted (itemSize capacity : Nat) (answers : CreateAnswers)
    (first : AsockVector) (wide : 1 ≤ itemSize)
    (created : AsockVector.create answers itemSize capacity = some first) :
    (capacity = 0 → ∀ item answer, first.push item answer = .error .assertion) ∧
    (1 ≤ capacity → itemSize * capacity < sizeBound →
      ∀ vector, GuardedRun step Sustained first vector → ∀ item answer,
        Sustained vector (.push item answer) → Answered vector item answer) := by
  constructor
  · rintro rfl item answer
    unfold AsockVector.create at created
    split at created
    · cases created
    · obtain ⟨data, _, rfl⟩ := Option.map_eq_some_iff.mp created
      rfl
  · intro roomy fits vector run item answer sustained
    have sturdy : Sturdy vector := run.invariant Sturdy
      (fun _ _ _ sturdy allowed stepped => step_sturdy sturdy allowed stepped)
      (.inl (create_spec created wide roomy fits).1)
    obtain ⟨code, after, pushes, _, replies⟩ := push_answered sturdy sustained
    exact ⟨fun full => doubling_asserted sturdy (sustained.2.1 full).1,
      code, after, pushes, replies⟩

-- A vector of one-byte items created with capacity 0: its one-byte block is never used.
theorem empty_capacity_trips : ∃ first : AsockVector,
    AsockVector.create ⟨true, some fun _ => 0⟩ 1 0 = some first ∧
      first.push [7] (some fun _ => 9) = .error .assertion ∧
      ¬ Answered first [7] (some fun _ => 9) := by
  refine ⟨⟨0, [0], 0, 1⟩, rfl, rfl, ?_⟩
  intro answered
  exact absurd (answered.asserted rfl) (by decide)

theorem second_push_answered : ∃ first vector : AsockVector,
    AsockVector.create ⟨true, some fun _ => 0⟩ 2 1 = some first ∧
      first.push [7, 8] none = .ok (asockSuccess, vector) ∧
      Answered vector [5, 6] (some fun _ => 9) := by
  have run : GuardedRun step Sustained ⟨0, [0, 0], 1, 2⟩ ⟨1, [7, 8], 1, 2⟩ :=
    .next (.push [7, 8] none) .refl
      ⟨rfl, fun full => absurd full (by decide), fun null => absurd null (by decide)⟩ rfl
  exact ⟨⟨0, [0, 0], 1, 2⟩, ⟨1, [7, 8], 1, 2⟩, rfl, rfl,
    (vector_growth_asserted 2 1 ⟨true, some fun _ => 0⟩ ⟨0, [0, 0], 1, 2⟩ (by decide) rfl).2
      (by decide) (by decide) _ run [5, 6] (some fun _ => 9)
      ⟨rfl, fun _ => ⟨by decide, fun _ => by decide⟩, fun null => absurd null (by decide)⟩⟩

end Results

end Libasock.VectorGrowth
