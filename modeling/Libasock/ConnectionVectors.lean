import Libasock.VectorRefinement
import Libasock.WorkerWorld
import Mathlib.Data.List.InsertIdx

/-!
The lists of `asock_connections.c` are vectors of pointers, and `Connections`
follows them: as long as no push is refused its memory, every call on the list
is answered as the vector answers it. After a refused push the vector has lost
its block, which `Connections` records as `lost`, and no entry can be reached.
The address of an object is a parameter; no call looks into it.
-/

namespace Libasock.ConnectionVectors
open ByteBlocks ReturnCodes VectorModel VectorRefinement WorkerWorld

def pointerSize : Nat := 8

variable (pointer : ConRef → List Byte)

def connectionsCreate (answers : CreateAnswers) (capacity : Nat) : Option AsockVector :=
  AsockVector.create answers pointerSize capacity

def connectionsPush (vector : AsockVector) (con : ConRef) (answer : Allocation) :
    Outcome (AsockReturnCode × AsockVector) := vector.push (pointer con) answer

def connectionsErase (vector : AsockVector) (index : Nat) :
    Outcome (AsockReturnCode × AsockVector) := vector.erase index

/-- Follows the pointer `asock_vector_at` returns, also when it is `NULL`. -/
def connectionsAt (vector : AsockVector) (index : Nat) : Outcome (List Byte) := do
  match ← vector.itemAt index with
  | none => .error .outOfBounds
  | some item => return item

structure Holds (list : Connections) (vector : AsockVector) : Prop where
  valid : Valid vector
  width : vector.mItemSize = pointerSize
  capacity : vector.mCapacity = list.mCapacity
  items : content vector = list.items.map pointer

variable {pointer} {list : Connections} {vector : AsockVector}

theorem Holds.length (holds : Holds pointer list vector) :
    vector.mSize = list.items.length := by
  rw [← content_length vector, holds.items, List.length_map]

theorem create_holds {answers : CreateAnswers}
    (created : connectionsCreate answers conInitCapacity = some vector) :
    Holds pointer .create vector := by
  obtain ⟨valid, empty, width⟩ := create_spec created (by decide) (by decide) (by decide)
  have capacity : vector.mCapacity = conInitCapacity := by
    unfold connectionsCreate AsockVector.create at created
    split at created
    · cases created
    · obtain ⟨data, _, rfl⟩ := Option.map_eq_some_iff.mp created
      rfl
  exact ⟨valid, width, capacity, empty⟩

/-- A vector with room asks for no memory. -/
theorem push_unasked {item : List Byte} (left right : Allocation)
    (room : vector.mSize ≠ vector.mCapacity) : vector.push item left = vector.push item right := by
  simp only [AsockVector.push, if_neg room]

theorem appended_holds {con : ConRef} {answer : Allocation} (holds : Holds pointer list vector)
    (wide : (pointer con).length = pointerSize)
    (addressable : pointerSize * (list.items.length + 1) ≤ 2 ^ 63) (granted : answer.isSome) :
    ∃ after, connectionsPush pointer vector con answer = .ok (asockSuccess, after) ∧
      Holds pointer { list with
        items := list.items ++ [con]
        mCapacity := if list.items.length = list.mCapacity then list.mCapacity * 2
          else list.mCapacity } after := by
  have size := holds.length
  obtain ⟨after, pushes, valid, appended, width, capacity⟩ := push_spec holds.valid
    (by rw [Addressable, holds.width, size]; exact addressable) (wide.trans holds.width.symm)
    granted
  refine ⟨after, pushes, valid, width.trans holds.width, ?_, ?_⟩
  · rw [capacity, pushedCapacity, size, holds.capacity]
  · rw [appended, holds.items, List.map_append]
    rfl

-- The vector answers as the list does, and a refused growth is what makes the list lost.
theorem push_holds {con : ConRef} {answer : Allocation} (holds : Holds pointer list vector)
    (wide : (pointer con).length = pointerSize)
    (addressable : pointerSize * (list.items.length + 1) ≤ 2 ^ 63) :
    ∃ after, connectionsPush pointer vector con answer =
        .ok ((list.push con answer.isSome).1, after) ∧
      (((list.push con answer.isSome).1 = asockSuccess ∧
          Holds pointer (list.push con answer.isSome).2 after) ∨
        ((list.push con answer.isSome).2.lost = true ∧ after.mData = [])) := by
  have size := holds.length
  have zeroed : (some fun _ => 0 : Allocation).isSome := rfl
  by_cases full : list.items.length = list.mCapacity
  · cases answer with
    | some junk =>
        obtain ⟨after, pushes, held⟩ :=
          appended_holds holds wide addressable (show (some junk : Allocation).isSome from rfl)
        rw [if_pos full] at held
        simp only [Connections.push, if_pos full, Option.isSome_some, if_true]
        exact ⟨after, pushes, .inl ⟨trivial, held⟩⟩
    | none =>
        have vectorFull : vector.mSize = vector.mCapacity := by
          rw [size, holds.capacity, full]
        have roomy := holds.valid.roomy
        have bounded := doubled_inside (by rw [Addressable, holds.width, size]; exact addressable)
          vectorFull holds.valid.width
        have wider := Nat.le_mul_of_pos_left (vector.mCapacity * 2) holds.valid.width
        have asks : vector.mCapacity < mulSize vector.mCapacity 2 := by
          rw [mulSize_exact (by omega)]
          omega
        have refused := refused_push (pointer con) vectorFull asks
        simp only [Connections.push, if_pos full]
        exact ⟨_, refused, .inr ⟨rfl, rfl⟩⟩
  · have room : vector.mSize ≠ vector.mCapacity := by
      rw [size, holds.capacity]
      exact full
    obtain ⟨after, pushes, held⟩ := appended_holds holds wide addressable zeroed
    rw [if_neg full] at held
    rw [connectionsPush, push_unasked _ (some fun _ => 0) room]
    simp only [Connections.push, if_neg full]
    exact ⟨after, pushes, .inl ⟨trivial, held⟩⟩

theorem erase_holds {index : Nat} (holds : Holds pointer list vector)
    (live : index < list.items.length) :
    ∃ after, connectionsErase vector index = .ok (asockSuccess, after) ∧
      Holds pointer (list.erase index) after := by
  obtain ⟨after, erases, valid, erased, width, capacity⟩ :=
    erase_spec holds.valid (holds.length ▸ live)
  refine ⟨after, erases, valid, width.trans holds.width, capacity.trans holds.capacity, ?_⟩
  rw [erased, holds.items, Connections.erase, List.eraseIdx_map]

theorem at_holds {index : Nat} {con : ConRef} (holds : Holds pointer list vector)
    (here : list.items[index]? = some con) : connectionsAt vector index = .ok (pointer con) := by
  have item := itemAt_spec holds.valid index
  rw [holds.items, List.getElem?_map, here] at item
  simp only [connectionsAt, item, Option.map_some, bind, Except.bind, pure, Except.pure]

theorem clear_holds (holds : Holds pointer list vector) :
    Holds pointer list.clear vector.clear :=
  ⟨⟨holds.valid.width, holds.valid.block, holds.valid.inside, holds.valid.roomy, Nat.zero_le _⟩,
    holds.width, holds.capacity, rfl⟩

/-- Without its block no index of the list can be read. -/
theorem lost_unreachable (index : Nat) (width : vector.mItemSize = pointerSize)
    (lost : vector.mData = []) : connectionsAt vector index = .error .outOfBounds := by
  have item : vector.itemAt index = .ok none ∨ vector.itemAt index = .error .outOfBounds := by
    unfold AsockVector.itemAt
    split
    · exact .inl rfl
    · rename_i pos _
      have beyond : ¬ pos + pointerSize ≤ 0 := by simp [pointerSize]
      rw [lost, width, load, List.length_nil, if_neg beyond]
      exact .inr rfl
  rcases item with null | fault
  · simp only [connectionsAt, null, bind, Except.bind]
  · simp only [connectionsAt, fault, bind, Except.bind]

end Libasock.ConnectionVectors
