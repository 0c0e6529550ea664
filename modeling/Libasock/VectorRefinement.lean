import Libasock.VectorModel

/-!
The vector refines a list of items. `Valid` is the representation invariant: the
block has exactly `m_capacity` items, of which the first `m_size` are the
content. `listPerform` states what the vector is for, and a failed `realloc` is
followed by what it does to the pointer it overwrites.
-/

namespace Libasock.VectorRefinement
open ByteBlocks ReturnCodes VectorModel

structure Valid (vector : AsockVector) : Prop where
  width : 1 ≤ vector.mItemSize
  block : vector.mData.length = vector.mItemSize * vector.mCapacity
  inside : vector.mItemSize * vector.mCapacity < sizeBound
  roomy : 1 ≤ vector.mCapacity
  sized : vector.mSize ≤ vector.mCapacity

def content (vector : AsockVector) : List (List Byte) :=
  slots vector.mItemSize vector.mData vector.mSize

/-- The items and the one to be pushed lie side by side in one address space, whose user half is
`2 ^ 63` bytes. -/
def Addressable (vector : AsockVector) : Prop :=
  vector.mItemSize * (vector.mSize + 1) ≤ 2 ^ 63

@[simp] theorem content_length (vector : AsockVector) : (content vector).length = vector.mSize :=
  slots_length ..

section Bounds

variable {vector : AsockVector} (valid : Valid vector)
include valid

theorem capacity_inside : vector.mCapacity < sizeBound :=
  Nat.lt_of_le_of_lt (Nat.le_mul_of_pos_left _ valid.width) valid.inside

theorem bytes_inside {count : Nat} (bounded : count ≤ vector.mCapacity) :
    vector.mItemSize * count < sizeBound :=
  Nat.lt_of_le_of_lt (Nat.mul_le_mul_left _ bounded) valid.inside

theorem bytes_exact {count : Nat} (bounded : count ≤ vector.mCapacity) :
    mulSize vector.mItemSize count = vector.mItemSize * count :=
  mulSize_exact (bytes_inside valid bounded)

/-- The source has the factors in either order. -/
theorem place_exact {count : Nat} (bounded : count ≤ vector.mCapacity) :
    mulSize count vector.mItemSize = vector.mItemSize * count := by
  rw [Nat.mul_comm]
  exact mulSize_exact (by rw [Nat.mul_comm]; exact bytes_inside valid bounded)

/-- The block has at least one byte, so it is no `NULL`. -/
theorem block_there : vector.mData ≠ [] := by
  intro null
  have positive : 0 < vector.mItemSize * vector.mCapacity :=
    Nat.mul_pos valid.width valid.roomy
  have block := valid.block
  rw [null, List.length_nil] at block
  omega

end Bounds

theorem create_spec {answers : CreateAnswers} {itemSize capacity : Nat} {vector : AsockVector}
    (created : AsockVector.create answers itemSize capacity = some vector) (wide : 1 ≤ itemSize)
    (roomy : 1 ≤ capacity) (fits : itemSize * capacity < sizeBound) :
    Valid vector ∧ content vector = [] ∧ vector.mItemSize = itemSize := by
  unfold AsockVector.create at created
  split at created
  · cases created
  · obtain ⟨data, served, rfl⟩ := Option.map_eq_some_iff.mp created
    have long := malloc_length served
    have bytes : 1 ≤ itemSize * capacity := Nat.mul_pos wide roomy
    rw [mulSize_exact fits, Nat.max_eq_left bytes] at long
    exact ⟨⟨wide, long, fits, roomy, Nat.zero_le _⟩, rfl, rfl⟩

section Push

/-- A full vector asks for twice its capacity, which `size_t` can count. -/
theorem doubled_inside {vector : AsockVector} (addressable : Addressable vector)
    (full : vector.mSize = vector.mCapacity) (width : 1 ≤ vector.mItemSize) :
    vector.mItemSize * (vector.mCapacity * 2) < sizeBound := by
  unfold Addressable at addressable
  rw [full, Nat.mul_succ] at addressable
  have twice : vector.mItemSize * (vector.mCapacity * 2) =
      vector.mItemSize * vector.mCapacity * 2 := (Nat.mul_assoc ..).symm
  unfold sizeBound
  omega

/-- The vector with another block and capacity around the same items. -/
theorem grow_spec {vector : AsockVector} {answer : Allocation} (valid : Valid vector)
    (bounded : vector.mItemSize * (vector.mCapacity * 2) < sizeBound)
    (full : vector.mSize = vector.mCapacity) (granted : answer.isSome) :
    ∃ grown, vector.grow answer = .ok (asockSuccess, grown) ∧ Valid grown ∧
      content grown = content vector ∧ grown.mItemSize = vector.mItemSize ∧
      grown.mCapacity = vector.mCapacity * 2 ∧ grown.mSize < grown.mCapacity := by
  have roomy := valid.roomy
  have wide := Nat.le_mul_of_pos_left (vector.mCapacity * 2) valid.width
  have doubled : mulSize vector.mCapacity 2 = vector.mCapacity * 2 := mulSize_exact (by omega)
  have bytes : mulSize (vector.mCapacity * 2) vector.mItemSize =
      vector.mItemSize * (vector.mCapacity * 2) := by
    rw [mulSize_exact (by rw [Nat.mul_comm]; exact bounded), Nat.mul_comm]
  obtain ⟨junk, rfl⟩ := Option.isSome_iff_exists.mp granted
  obtain ⟨data, served⟩ : ∃ data, realloc (some junk) vector.mData
      (vector.mItemSize * (vector.mCapacity * 2)) = some data := ⟨_, rfl⟩
  have long := realloc_length served
  obtain ⟨fresh, rfl⟩ := realloc_prefix served (by
    rw [valid.block]
    exact Nat.mul_le_mul_left _ (by omega))
  have there : vector.mData ++ fresh ≠ [] := by
    intro null
    exact block_there valid (List.append_eq_nil_iff.mp null).1
  refine ⟨{ vector with mData := vector.mData ++ fresh, mCapacity := vector.mCapacity * 2 },
    ?_, ⟨valid.width, long, bounded, by simp only; omega, by simp only; omega⟩, ?_, rfl, rfl, ?_⟩
  · simp only [AsockVector.grow, AsockVector.reallocate, doubled, bytes, served,
      if_pos (show vector.mCapacity < vector.mCapacity * 2 by omega), Option.getD_some,
      if_neg there, bind, Except.bind, pure, Except.pure, if_neg (show (0 : Int) ≠ -1 by decide)]
  · exact slots_congr fun index live => slot_append
      (by rw [valid.block]) (Nat.lt_of_lt_of_le live valid.sized)
  · simp only
    omega

theorem copyIn_spec {vector : AsockVector} {item : List Byte} (valid : Valid vector)
    (long : item.length = vector.mItemSize) (room : vector.mSize < vector.mCapacity) :
    ∃ after, vector.copyIn item = .ok after ∧ Valid after ∧
      content after = content vector ++ [item] ∧ after.mItemSize = vector.mItemSize ∧
      after.mCapacity = vector.mCapacity := by
  have capacityInside := capacity_inside valid
  have last : vector.mItemSize * vector.mSize + vector.mItemSize ≤ vector.mData.length := by
    rw [valid.block, ← Nat.mul_succ]
    exact Nat.mul_le_mul_left _ room
  have place := place_exact valid valid.sized
  have counted : addSize vector.mSize 1 = vector.mSize + 1 := addSize_exact (by omega)
  obtain ⟨data, copies, copied⟩ := memcpy_copied vector.mData
    (vector.mItemSize * vector.mSize) item 0 vector.mItemSize last (by omega)
  have whole : Copied vector.mData (vector.mItemSize * vector.mSize) item (vector.mItemSize * 0)
      (vector.mItemSize * 1) data := by
    simpa only [Nat.mul_zero, Nat.mul_one] using copied
  have cells := copied_slot vector.mSize 0 whole
  refine ⟨{ vector with mData := data, mSize := vector.mSize + 1 }, ?_,
    ⟨valid.width, copied.1.trans valid.block, valid.inside, valid.roomy, room⟩, ?_, rfl, rfl⟩
  · simp only [AsockVector.copyIn, place, copies, counted, bind, Except.bind, pure, Except.pure]
  · have here : slot vector.mItemSize data vector.mSize = item := by
      rw [cells, if_pos (by omega), slot, Nat.sub_self, Nat.add_zero, Nat.mul_zero,
        List.drop_zero, ← long, List.take_length]
    have kept : slots vector.mItemSize data vector.mSize = content vector :=
      slots_congr fun index live => by rw [cells, if_neg (by omega)]
    simp only [content, slots_succ] at kept ⊢
    rw [kept, here]

def pushedCapacity (vector : AsockVector) : Nat :=
  if vector.mSize = vector.mCapacity then vector.mCapacity * 2 else vector.mCapacity

/-- A push whose `realloc`, if it asks for one, succeeds appends the item. -/
theorem push_appends {vector : AsockVector} {item : List Byte} {answer : Allocation}
    (valid : Valid vector) (bounded : vector.mSize = vector.mCapacity →
      vector.mItemSize * (vector.mCapacity * 2) < sizeBound)
    (long : item.length = vector.mItemSize) (granted : answer.isSome) :
    ∃ after, vector.push item answer = .ok (asockSuccess, after) ∧ Valid after ∧
      content after = content vector ++ [item] ∧ after.mItemSize = vector.mItemSize ∧
      after.mCapacity = pushedCapacity vector := by
  by_cases full : vector.mSize = vector.mCapacity
  · obtain ⟨grown, grows, grownValid, holds, width, doubled, room⟩ :=
      grow_spec valid (bounded full) full granted
    obtain ⟨after, copies, afterValid, appended, kept, capacity⟩ :=
      copyIn_spec grownValid (long.trans width.symm) room
    have twice : after.mCapacity = pushedCapacity vector := by
      rw [pushedCapacity, if_pos full, capacity, doubled]
    refine ⟨after, ?_, afterValid, by rw [appended, holds], kept.trans width, twice⟩
    simp only [AsockVector.push, if_pos full, grows, copies, bind, Except.bind, pure, Except.pure,
      if_true]
  · have sized := valid.sized
    obtain ⟨after, copies, afterValid, appended, kept, capacity⟩ :=
      copyIn_spec valid long (by omega)
    refine ⟨after, ?_, afterValid, appended, kept, by rw [pushedCapacity, if_neg full, capacity]⟩
    simp only [AsockVector.push, if_neg full, copies, bind, Except.bind, pure, Except.pure,
      if_true]

theorem push_spec {vector : AsockVector} {item : List Byte} {answer : Allocation}
    (valid : Valid vector) (addressable : Addressable vector)
    (long : item.length = vector.mItemSize) (granted : answer.isSome) :
    ∃ after, vector.push item answer = .ok (asockSuccess, after) ∧ Valid after ∧
      content after = content vector ++ [item] ∧ after.mItemSize = vector.mItemSize ∧
      after.mCapacity = pushedCapacity vector :=
  push_appends valid (fun full => doubled_inside addressable full valid.width) long granted

end Push

section Erase

theorem erase_spec {vector : AsockVector} {index : Nat} (valid : Valid vector)
    (live : index < vector.mSize) :
    ∃ after, vector.erase index = .ok (asockSuccess, after) ∧ Valid after ∧
      content after = (content vector).eraseIdx index ∧ after.mItemSize = vector.mItemSize ∧
      after.mCapacity = vector.mCapacity := by
  have sized := valid.sized
  have capacityInside := capacity_inside valid
  have sizeInside : vector.mSize < sizeBound := Nat.lt_of_le_of_lt sized capacityInside
  have next : addSize index 1 = index + 1 := addSize_exact (by omega)
  have less : subSize vector.mSize 1 = vector.mSize - 1 := subSize_exact (by omega) sizeInside
  have behind : subSize (vector.mSize - 1) index = vector.mSize - 1 - index := by
    have lessInside : vector.mSize - 1 < sizeBound := Nat.lt_of_le_of_lt (Nat.sub_le ..) sizeInside
    rw [subSize_exact (Nat.le_sub_one_of_lt live) lessInside]
  have target := bytes_exact valid (show index ≤ vector.mCapacity by omega)
  have source := bytes_exact valid (show index + 1 ≤ vector.mCapacity by omega)
  have length := place_exact valid (show vector.mSize - 1 - index ≤ vector.mCapacity by omega)
  have sourceEnds : vector.mItemSize * (index + 1) +
      vector.mItemSize * (vector.mSize - 1 - index) ≤ vector.mData.length := by
    rw [valid.block, ← Nat.mul_add]
    exact Nat.mul_le_mul_left _ (by omega)
  have targetEnds : vector.mItemSize * index +
      vector.mItemSize * (vector.mSize - 1 - index) ≤ vector.mData.length := by
    rw [valid.block, ← Nat.mul_add]
    exact Nat.mul_le_mul_left _ (by omega)
  obtain ⟨data, moves, moved⟩ :=
    memcpy_copied vector.mData _ vector.mData _ _ targetEnds sourceEnds
  refine ⟨{ vector with mData := data, mSize := vector.mSize - 1 }, ?_,
    ⟨valid.width, moved.1.trans valid.block, valid.inside, valid.roomy, by simp only; omega⟩,
    slots_moved live moved, rfl, rfl⟩
  rw [AsockVector.erase, if_neg (by omega), less, behind, next, target, source, length,
    memmoveWithin, moves]
  rfl

theorem erase_outside {vector : AsockVector} {index : Nat} (outside : vector.mSize ≤ index) :
    vector.erase index = .ok (asockFailure, vector) := if_pos (.inr outside)

end Erase

section Lookup

variable {vector : AsockVector} (valid : Valid vector)
include valid

theorem itemAt_spec (index : Nat) : vector.itemAt index = .ok (content vector)[index]? := by
  rw [content, slots_getElem?]
  by_cases live : index < vector.mSize
  · have sized := valid.sized
    have place := place_exact valid (show index ≤ vector.mCapacity by omega)
    have points : vector.atIndex index = some (vector.mItemSize * index) := by
      rw [AsockVector.atIndex, if_neg (by omega), address, if_neg, place]
      exact fun null => block_there valid null.1
    have loads := load_slot
      (Nat.le_of_eq valid.block.symm) (Nat.lt_of_lt_of_le live sized)
    simp only [AsockVector.itemAt, points, loads, if_pos live, Except.map]
  · have none : vector.atIndex index = none := if_pos (by omega)
    simp only [AsockVector.itemAt, none, if_neg live]

/-- The search from an index on, whatever came before it. -/
theorem indexOfFrom_spec {item : List Byte} (long : item.length = vector.mItemSize)
    (left index : Nat) (rest : index + left = vector.mSize) :
    vector.indexOfFrom item left index =
      .ok ((((content vector).drop index).findIdx? (· == item)).elim invalidVecIndex
        (index + ·)) := by
  have sized := valid.sized
  induction left generalizing index with
  | zero =>
      rw [List.drop_of_length_le (by rw [content_length]; omega)]
      rfl
  | succ left ih =>
      have live : index < vector.mSize := by omega
      have place := place_exact valid (show index ≤ vector.mCapacity by omega)
      have loads := load_slot
        (Nat.le_of_eq valid.block.symm) (Nat.lt_of_lt_of_le live sized)
      have wanted : load item 0 vector.mItemSize = .ok item := by
        rw [load, if_pos (by omega), List.drop_zero, ← long, List.take_length]
      have here : (content vector)[index]? = some (slot vector.mItemSize vector.mData index) := by
        rw [content, slots_getElem?, if_pos live]
      obtain ⟨inside, same⟩ := List.getElem?_eq_some_iff.mp here
      rw [List.drop_eq_getElem_cons inside, same, List.findIdx?_cons]
      simp only [AsockVector.indexOfFrom, place, loads, wanted, bind, Except.bind, pure,
        Except.pure]
      by_cases hit : slot vector.mItemSize vector.mData index = item
      · simp [hit]
      · rw [if_neg hit, ih (index + 1) (by omega)]
        cases ((content vector).drop (index + 1)).findIdx? (· == item) with
        | none => simp [hit]
        | some offset =>
            simp [hit]
            omega

/-- The least index of an item with the same bytes. -/
theorem indexOf_spec {item : List Byte} (long : item.length = vector.mItemSize) :
    vector.indexOf item =
      .ok (((content vector).findIdx? (· == item)).getD invalidVecIndex) := by
  have scans := indexOfFrom_spec valid long vector.mSize 0 (Nat.zero_add _)
  rw [AsockVector.indexOf, scans, List.drop_zero]
  cases (content vector).findIdx? (· == item) with
  | none => rfl
  | some index => simp

end Lookup

section ListVector

inductive Op where
  | push (item : List Byte) (answer : Allocation)
  | erase (index : Nat)
  | clear

def perform (vector : AsockVector) : Op → Outcome (AsockReturnCode × AsockVector)
  | .push item answer => vector.push item answer
  | .erase index => vector.erase index
  | .clear => return (asockSuccess, vector.clear)

def performAll (vector : AsockVector) : List Op → Outcome (List AsockReturnCode × AsockVector)
  | [] => return ([], vector)
  | op :: rest => do
      let first ← perform vector op
      let tail ← performAll first.2 rest
      return (first.1 :: tail.1, tail.2)

def listPerform (items : List (List Byte)) : Op → AsockReturnCode × List (List Byte)
  | .push item _ => (asockSuccess, items ++ [item])
  | .erase index =>
      if index < items.length then (asockSuccess, items.eraseIdx index) else (asockFailure, items)
  | .clear => (asockSuccess, [])

def listPerformAll (items : List (List Byte)) : List Op → List AsockReturnCode × List (List Byte)
  | [] => ([], items)
  | op :: rest =>
      let first := listPerform items op
      let tail := listPerformAll first.2 rest
      (first.1 :: tail.1, tail.2)

/-- What a caller promises: an item of the vector's width beside the vector's items in one address
space, and that `realloc` succeeds. -/
def Admissible (itemSize : Nat) (items : List (List Byte)) : Op → Prop
  | .push item answer => item.length = itemSize ∧ itemSize * (items.length + 1) ≤ 2 ^ 63 ∧
      answer.isSome
  | .erase _ | .clear => True

def AdmissibleAll (itemSize : Nat) (items : List (List Byte)) : List Op → Prop
  | [] => True
  | op :: rest =>
      Admissible itemSize items op ∧ AdmissibleAll itemSize (listPerform items op).2 rest

end ListVector

structure Represents (itemSize : Nat) (items : List (List Byte)) (vector : AsockVector) :
    Prop where
  valid : Valid vector
  itemSize : vector.mItemSize = itemSize
  items : content vector = items

section Refinement

variable {itemSize : Nat} {items : List (List Byte)} {vector : AsockVector}

theorem Represents.length (rep : Represents itemSize items vector) :
    vector.mSize = items.length := by
  rw [← rep.items, content_length]

theorem perform_refines {op : Op} (rep : Represents itemSize items vector)
    (admissible : Admissible itemSize items op) :
    ∃ after, perform vector op = .ok ((listPerform items op).1, after) ∧
      Represents itemSize (listPerform items op).2 after := by
  have size := rep.length
  cases op with
  | push item answer =>
      obtain ⟨long, addressable, granted⟩ := admissible
      obtain ⟨after, pushes, valid, appended, kept, _⟩ := push_spec rep.valid
        (by rw [Addressable, rep.itemSize, size]; exact addressable)
        (long.trans rep.itemSize.symm) granted
      exact ⟨after, pushes, valid, kept.trans rep.itemSize, by rw [appended, rep.items]; rfl⟩
  | erase index =>
      by_cases live : index < items.length
      · obtain ⟨after, erases, valid, erased, kept, _⟩ := erase_spec rep.valid (size ▸ live)
        have reply : listPerform items (.erase index) =
            (asockSuccess, items.eraseIdx index) := if_pos live
        rw [reply]
        exact ⟨after, erases, valid, kept.trans rep.itemSize, by rw [erased, rep.items]⟩
      · have reply : listPerform items (.erase index) = (asockFailure, items) := if_neg live
        rw [reply]
        exact ⟨vector, erase_outside (by omega), rep⟩
  | clear =>
      have valid := rep.valid
      exact ⟨vector.clear, rfl, ⟨valid.width, valid.block, valid.inside, valid.roomy,
        Nat.zero_le _⟩, rep.itemSize, rfl⟩

theorem performAll_refines (ops : List Op) (rep : Represents itemSize items vector)
    (admissible : AdmissibleAll itemSize items ops) :
    ∃ last, performAll vector ops = .ok ((listPerformAll items ops).1, last) ∧
      Represents itemSize (listPerformAll items ops).2 last := by
  induction ops generalizing vector items with
  | nil => exact ⟨vector, rfl, rep⟩
  | cons op rest ih =>
      obtain ⟨middle, performs, middleRep⟩ := perform_refines rep admissible.1
      obtain ⟨last, finishes, lastRep⟩ := ih middleRep admissible.2
      refine ⟨last, ?_, lastRep⟩
      simp only [performAll, performs, finishes, bind, Except.bind, pure, Except.pure,
        listPerformAll]

end Refinement

-- Every reply is the list's reply, and the lookups afterwards are those of the list.
theorem vector_refines_list (itemSize capacity : Nat) (answers : CreateAnswers)
    (vector : AsockVector) (ops : List Op) (wide : 1 ≤ itemSize) (roomy : 1 ≤ capacity)
    (created : AsockVector.create answers itemSize capacity = some vector)
    (fits : itemSize * capacity < sizeBound) (admissible : AdmissibleAll itemSize [] ops) :
    ∃ last, performAll vector ops = .ok ((listPerformAll [] ops).1, last) ∧
      last.size = (listPerformAll [] ops).2.length ∧
      (∀ index, last.itemAt index = .ok (listPerformAll [] ops).2[index]?) ∧
      ∀ item, item.length = itemSize → last.indexOf item =
        .ok (((listPerformAll [] ops).2.findIdx? (· == item)).getD invalidVecIndex) := by
  obtain ⟨valid, empty, width⟩ := create_spec created wide roomy fits
  obtain ⟨last, performs, rep⟩ := performAll_refines ops ⟨valid, width, empty⟩ admissible
  refine ⟨last, performs, rep.length, fun index => ?_, fun item long => ?_⟩
  · rw [itemAt_spec rep.valid, rep.items]
  · rw [indexOf_spec rep.valid (long.trans rep.itemSize.symm), rep.items]

/-- Two-byte items: the third push grows the block, then the first item leaves. -/
def growThenErase : List Op :=
  [.push [0, 1] (some fun _ => 9), .push [2, 3] (some fun _ => 9), .push [4, 5] (some fun _ => 9),
    .erase 0, .erase 7]

theorem grow_then_erase_refines :
    ∃ vector last, AsockVector.create ⟨true, some fun _ => 0⟩ 2 2 = some vector ∧
      performAll vector growThenErase = .ok ([asockSuccess, asockSuccess, asockSuccess,
        asockSuccess, asockFailure], last) ∧
      last.size = 2 ∧ last.itemAt 0 = .ok (some [2, 3]) ∧ last.itemAt 2 = .ok none ∧
      last.indexOf [4, 5] = .ok 1 ∧ last.indexOf [0, 1] = .ok invalidVecIndex := by
  obtain ⟨last, performs, size, items, indices⟩ := vector_refines_list 2 2
    ⟨true, some fun _ => 0⟩ ⟨0, [0, 0, 0, 0], 2, 2⟩ growThenErase (by decide) (by decide) rfl
    (by decide) (by simp [growThenErase, AdmissibleAll, Admissible, listPerform])
  exact ⟨_, last, rfl, performs, size, items 0, items 2, indices [4, 5] rfl, indices [0, 1] rfl⟩

section FailedPush

/-- Every later call answers as it would have without the failed one. -/
structure Unchanged (before after : AsockVector) : Prop where
  size : after.size = before.size
  capacity : after.capacity = before.capacity
  pointers : ∀ index, after.atIndex index = before.atIndex index
  items : ∀ index, after.itemAt index = before.itemAt index
  indices : ∀ item, after.indexOf item = before.indexOf item
  replies : ∀ ops, (performAll after ops).map Prod.fst = (performAll before ops).map Prod.fst

/-- The growth that is refused leaves `NULL` in `m_data`. -/
def lost (vector : AsockVector) : AsockVector := { vector with mData := [] }

theorem refused_push {vector : AsockVector} (item : List Byte)
    (full : vector.mSize = vector.mCapacity)
    (asks : vector.mCapacity < mulSize vector.mCapacity 2) :
    vector.push item none = .ok (asockFailure, lost vector) := by
  have reallocated : vector.reallocate (mulSize vector.mCapacity 2) none =
      .ok (-1, lost vector) := if_pos asks
  have grown : vector.grow none = .ok (asockFailure, lost vector) := by
    simp only [AsockVector.grow, reallocated, bind, Except.bind, pure, Except.pure, if_true]
  simp only [AsockVector.push, if_pos full, grown, bind, Except.bind, pure, Except.pure]
  rfl

-- A full vector has an item at index 0, and its address becomes `NULL`.
theorem failed_push_unchanged (vector : AsockVector) (item : List Byte)
    (full : vector.mSize = vector.mCapacity)
    (asks : vector.mCapacity < mulSize vector.mCapacity 2) :
    ∃ after, vector.push item none = .ok (asockFailure, after) ∧ after.size = vector.size ∧
      after.capacity = vector.capacity ∧ (Unchanged vector after ↔ vector.mData = []) := by
  refine ⟨lost vector, refused_push item full asks, rfl, rfl, ?_⟩
  constructor
  · intro unchanged
    have occupied : ¬ vector.mSize ≤ 0 := by
      intro empty
      have zero : mulSize 0 2 = 0 := by decide
      rw [← full, Nat.le_zero.mp empty, zero] at asks
      exact Nat.lt_irrefl 0 asks
    have first : mulSize 0 vector.mItemSize = 0 := by rw [mulSize, Nat.zero_mul, Nat.zero_mod]
    have same := unchanged.pointers 0
    simp only [AsockVector.atIndex, lost, if_neg occupied, first, address, and_true,
      if_true] at same
    by_contra there
    rw [if_neg there] at same
    cases same
  · intro null
    have same : lost vector = vector := by rw [lost, ← null]
    rw [same]
    exact ⟨rfl, rfl, fun _ => rfl, fun _ => rfl, fun _ => rfl, fun _ => rfl⟩

-- One item in a vector of capacity one; the second push gets no memory.
theorem failed_push_loses_items : ∃ first vector after : AsockVector,
    AsockVector.create ⟨true, some fun _ => 0⟩ 1 1 = some first ∧
      first.push [7] none = .ok (asockSuccess, vector) ∧
      vector.push [8] none = .ok (asockFailure, after) ∧
      vector.itemAt 0 = .ok (some [7]) ∧ after.itemAt 0 = .ok none ∧
      ¬ Unchanged vector after := by
  refine ⟨⟨0, [0], 1, 1⟩, ⟨1, [7], 1, 1⟩, ⟨1, [], 1, 1⟩, rfl, rfl, rfl, rfl, rfl, ?_⟩
  intro unchanged
  have same := unchanged.pointers 0
  revert same
  decide

theorem second_failure_unchanged : ∃ after,
    AsockVector.push ⟨1, [], 1, 1⟩ [8] none = .ok (asockFailure, after) ∧
      Unchanged ⟨1, [], 1, 1⟩ after := by
  obtain ⟨after, pushes, _, _, sharp⟩ :=
    failed_push_unchanged ⟨1, [], 1, 1⟩ [8] rfl (by decide)
  exact ⟨after, pushes, sharp.mpr rfl⟩

end FailedPush

end Libasock.VectorRefinement
