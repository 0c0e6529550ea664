import Mathlib.Algebra.Group.Nat.Defs
import Mathlib.Data.List.Basic
import Mathlib.Data.Nat.Basic

/-!
What a C program relies on when it handles blocks of bytes: 64-bit `size_t`
arithmetic, the allocator and `memcpy`. A computation that leaves its blocks,
trips an assertion or never returns is a `Fault`. A block without bytes stands
for `NULL`: no access to it is in bounds.

`slot` reads a block as an array of items of one width; the lemmas say which
items a copy of whole items changes. The module names no particular program.
-/

namespace Libasock.ByteBlocks

abbrev Byte := UInt8

inductive Fault where
  | diverges | outOfBounds | overlap | assertion
  deriving DecidableEq, Repr

abbrev Outcome (Value : Type) := Except Fault Value

section Outcomes

variable {Value Result : Type} {outcome : Outcome Value} {result : Result}

theorem sequenced {rest : Value → Outcome Result} (runs : (outcome >>= rest) = .ok result) :
    ∃ value, outcome = .ok value ∧ rest value = .ok result := by
  cases outcome with
  | error fault => cases runs
  | ok value => exact ⟨value, rfl, runs⟩

theorem mapped {make : Value → Result} (maps : outcome.map make = .ok result) :
    ∃ value, outcome = .ok value ∧ make value = result := by
  cases outcome with
  | error fault => cases maps
  | ok value => exact ⟨value, rfl, Except.ok.inj maps⟩

end Outcomes

section SizeArithmetic

def sizeBound : Nat := 2 ^ 64

def addSize (left right : Nat) : Nat := (left + right) % sizeBound
def mulSize (left right : Nat) : Nat := (left * right) % sizeBound
def subSize (left right : Nat) : Nat := (left + (sizeBound - right)) % sizeBound

theorem addSize_exact {left right : Nat} (fits : left + right < sizeBound) :
    addSize left right = left + right := Nat.mod_eq_of_lt fits

theorem mulSize_exact {left right : Nat} (fits : left * right < sizeBound) :
    mulSize left right = left * right := Nat.mod_eq_of_lt fits

theorem subSize_exact {left right : Nat} (ordered : right ≤ left) (fits : left < sizeBound) :
    subSize left right = left - right := by
  unfold subSize
  have shifted : left + (sizeBound - right) = (left - right) + sizeBound := by omega
  rw [shifted, Nat.add_mod_right, Nat.mod_eq_of_lt (by omega)]

/-- `while (current < target) current *= 2`, with the wrap of `size_t`. -/
def doubleUntil : Nat → Nat → Nat → Outcome Nat
  | 0, _, _ => .error .diverges
  | fuel + 1, current, target =>
      if current < target then doubleUntil fuel (mulSize current 2) target else .ok current

/-- After 64 doublings the value is 0 for good, so 65 tests decide the loop. -/
def doublingFuel : Nat := 65

/-- Up to half the range the loop ends without a wrap, and unless it was done at
once it stops below twice its target. -/
theorem doubling_ends (fuel current target : Nat) (reach : target ≤ current * 2 ^ fuel)
    (half : 2 * target ≤ sizeBound) (fits : current < sizeBound) :
    ∃ power, doubleUntil (fuel + 1) current target = .ok (current * 2 ^ power) ∧
      target ≤ current * 2 ^ power ∧ current * 2 ^ power < sizeBound ∧
      (power = 0 ∨ current * 2 ^ power < 2 * target) := by
  induction fuel generalizing current with
  | zero =>
      have done : ¬ current < target := by simpa using reach
      exact ⟨0, by simp [doubleUntil, done], by simpa using reach, by simpa using fits, .inl rfl⟩
  | succ fuel ih =>
      by_cases below : current < target
      · have doubled : mulSize current 2 = current * 2 := mulSize_exact (by omega)
        have reachNext : target ≤ current * 2 * 2 ^ fuel := by
          rw [Nat.pow_succ'] at reach
          simpa only [Nat.mul_assoc] using reach
        obtain ⟨power, stops, covers, inside, tight⟩ := ih (current * 2) reachNext (by omega)
        have shift : current * 2 * 2 ^ power = current * 2 ^ (power + 1) := by
          rw [Nat.pow_succ', Nat.mul_assoc]
        rw [shift] at stops covers inside tight
        refine ⟨power + 1, ?_, covers, inside, .inr ?_⟩
        · rw [doubleUntil, if_pos below, doubled, stops]
        · rcases tight with stopped | tight
          · subst stopped
            omega
          · exact tight
      · exact ⟨0, by simp [doubleUntil, below], by simpa using below, by simpa using fits, .inl rfl⟩

-- Once the value has wrapped to zero the loop never ends.
theorem doubling_stuck (fuel target : Nat) (positive : 0 < target) :
    doubleUntil fuel 0 target = .error .diverges := by
  induction fuel with
  | zero => rfl
  | succ fuel ih => rw [doubleUntil, if_pos positive, mulSize, Nat.zero_mul, Nat.zero_mod, ih]

theorem doubling_power {fuel order target result : Nat} (small : order < 64)
    (stops : doubleUntil fuel (2 ^ order) target = .ok result) :
    ∃ power, result = 2 ^ power ∧ power < 64 ∧ target ≤ result := by
  induction fuel generalizing order with
  | zero => cases stops
  | succ fuel ih =>
      rw [doubleUntil] at stops
      split at stops
      · rename_i below
        by_cases last : order = 63
        · subst last
          have wrapped : mulSize (2 ^ 63) 2 = 0 := by decide
          rw [wrapped, doubling_stuck fuel target (by omega)] at stops
          cases stops
        · have next : mulSize (2 ^ order) 2 = 2 ^ (order + 1) := by
            rw [mulSize_exact, Nat.pow_succ]
            rw [← Nat.pow_succ]
            exact Nat.pow_lt_pow_right (by decide) (by omega)
          rw [next] at stops
          exact ih (by omega) stops
      · rename_i done
        cases stops
        exact ⟨order, rfl, small, by omega⟩

/-- Some power of two that `size_t` can hold is at least `count`, and `size_t` can count the bytes
of that many items too. -/
def RoundsInside (width count : Nat) : Prop :=
  ∃ order, order < 64 ∧ count ≤ 2 ^ order ∧ width * 2 ^ order < sizeBound

instance (width count : Nat) : Decidable (RoundsInside width count) :=
  inferInstanceAs (Decidable (∃ order, order < 64 ∧ count ≤ 2 ^ order ∧
    width * 2 ^ order < sizeBound))

theorem RoundsInside.half {width count : Nat} (rounds : RoundsInside width count) :
    2 * count ≤ sizeBound := by
  obtain ⟨order, small, covers, _⟩ := rounds
  have top : 2 ^ order ≤ 2 ^ 63 := Nat.pow_le_pow_right (by decide) (by omega)
  unfold sizeBound
  omega

theorem RoundsInside.addSize {width left right : Nat} (rounds : RoundsInside width (left + right)) :
    addSize left right = left + right := by
  have half := rounds.half
  exact addSize_exact (by unfold sizeBound at *; omega)

/-- Doubling a power of two ends at the least one that reaches the target. -/
theorem doubling_rounds {width order target : Nat} (rounds : RoundsInside width target)
    (start : 2 ^ order < 2 * target) :
    ∃ final, doubleUntil doublingFuel (2 ^ order) target = .ok (2 ^ final) ∧ order ≤ final ∧
      final < 64 ∧ target ≤ 2 ^ final ∧ 2 ^ final < 2 * target ∧
      width * 2 ^ final < sizeBound := by
  have half := rounds.half
  have reach : target ≤ 2 ^ order * 2 ^ 64 := by
    have bound : 1 * 2 ^ 64 ≤ 2 ^ order * 2 ^ 64 :=
      Nat.mul_le_mul_right _ (Nat.two_pow_pos order)
    unfold sizeBound at half
    omega
  obtain ⟨power, stops, covers, inside, tight⟩ :=
    doubling_ends 64 (2 ^ order) target reach half (by omega)
  have below : 2 ^ order * 2 ^ power < 2 * target := by
    rcases tight with stopped | tight
    · subst stopped
      omega
    · exact tight
  rw [← Nat.pow_add] at stops covers inside below
  obtain ⟨top, topSmall, topCovers, topInside⟩ := rounds
  have least : order + power < top + 1 := by
    apply (Nat.pow_lt_pow_iff_right (show 1 < 2 by decide)).mp
    rw [Nat.pow_succ]
    omega
  have bytes : width * 2 ^ (order + power) ≤ width * 2 ^ top :=
    Nat.mul_le_mul_left _ (Nat.pow_le_pow_right (by decide) (by omega))
  exact ⟨order + power, stops, Nat.le_add_right .., by omega, covers, below, by omega⟩

end SizeArithmetic

section Allocator

/-- The allocator refuses, or returns a block whose fresh bytes are arbitrary. -/
abbrev Allocation := Option (Nat → Byte)

def malloc (answer : Allocation) (size : Nat) : Option (List Byte) :=
  answer.map fun junk => (List.range size).map junk

def realloc (answer : Allocation) (block : List Byte) (size : Nat) : Option (List Byte) :=
  answer.map fun junk => block.take size ++ (List.range (size - block.length)).map junk

theorem malloc_length {answer : Allocation} {size : Nat} {block : List Byte}
    (granted : malloc answer size = some block) : block.length = size := by
  obtain ⟨junk, _, same⟩ := Option.map_eq_some_iff.mp granted
  simp [← same]

theorem realloc_length {answer : Allocation} {old block : List Byte} {size : Nat}
    (granted : realloc answer old size = some block) : block.length = size := by
  obtain ⟨junk, _, same⟩ := Option.map_eq_some_iff.mp granted
  simp only [← same, List.length_append, List.length_take, List.length_map, List.length_range]
  omega

theorem realloc_prefix {answer : Allocation} {old block : List Byte} {size : Nat}
    (granted : realloc answer old size = some block) (grows : old.length ≤ size) :
    ∃ fresh, block = old ++ fresh := by
  obtain ⟨junk, _, same⟩ := Option.map_eq_some_iff.mp granted
  exact ⟨_, by rw [← same, List.take_of_length_le grows]⟩

end Allocator

section Copying

/-- `memcpy(dst + dstPos, src + srcPos, size)` between two blocks. -/
def memcpy (dst : List Byte) (dstPos : Nat) (src : List Byte) (srcPos size : Nat) :
    Outcome (List Byte) :=
  if dstPos + size ≤ dst.length ∧ srcPos + size ≤ src.length then
    .ok (dst.take dstPos ++ (src.drop srcPos).take size ++ dst.drop (dstPos + size))
  else .error .outOfBounds

/-- The same inside one block, where the two ranges may not overlap. -/
def memcpyWithin (block : List Byte) (dstPos srcPos size : Nat) : Outcome (List Byte) :=
  if dstPos + size ≤ srcPos ∨ srcPos + size ≤ dstPos then
    memcpy block dstPos block srcPos size
  else .error .overlap

/-- `memmove` inside one block, where the two ranges may overlap. -/
def memmoveWithin (block : List Byte) (dstPos srcPos size : Nat) : Outcome (List Byte) :=
  memcpy block dstPos block srcPos size

/-- The `size` bytes a pointer into the block leads to, as `memcmp` and a `*` read them. -/
def load (block : List Byte) (pos size : Nat) : Outcome (List Byte) :=
  if pos + size ≤ block.length then .ok ((block.drop pos).take size) else .error .outOfBounds

def Copied (dst : List Byte) (dstPos : Nat) (src : List Byte) (srcPos size : Nat)
    (result : List Byte) : Prop :=
  result.length = dst.length ∧ ∀ pos : Nat, result[pos]? =
    if dstPos ≤ pos ∧ pos < dstPos + size then src[srcPos + (pos - dstPos)]? else dst[pos]?

theorem memcpy_copied (dst : List Byte) (dstPos : Nat) (src : List Byte) (srcPos size : Nat)
    (dstInside : dstPos + size ≤ dst.length) (srcInside : srcPos + size ≤ src.length) :
    ∃ result, memcpy dst dstPos src srcPos size = .ok result ∧
      Copied dst dstPos src srcPos size result := by
  refine ⟨_, if_pos ⟨dstInside, srcInside⟩, ?_, ?_⟩
  · simp only [List.length_append, List.length_take, List.length_drop]
    omega
  · intro pos
    have frontLength : (dst.take dstPos).length = dstPos := by
      rw [List.length_take]; omega
    have middleLength : ((src.drop srcPos).take size).length = size := by
      rw [List.length_take, List.length_drop]; omega
    by_cases front : pos < dstPos
    · rw [if_neg (by omega), List.append_assoc, List.getElem?_append_left (by omega),
        List.getElem?_take_of_lt front]
    · by_cases middle : pos < dstPos + size
      · rw [if_pos ⟨by omega, middle⟩, List.append_assoc,
          List.getElem?_append_right (by omega), frontLength,
          List.getElem?_append_left (by omega), List.getElem?_take_of_lt (by omega),
          List.getElem?_drop]
      · rw [if_neg (by omega), List.getElem?_append_right (by
          rw [List.length_append, frontLength, middleLength]; omega), List.getElem?_drop]
        congr 1
        rw [List.length_append, frontLength, middleLength]
        omega

theorem memcpy_ok {dst src : List Byte} {dstPos srcPos size : Nat}
    (dstInside : dstPos + size ≤ dst.length) (srcInside : srcPos + size ≤ src.length) :
    memcpy dst dstPos src srcPos size =
      .ok (dst.take dstPos ++ (src.drop srcPos).take size ++ dst.drop (dstPos + size)) :=
  if_pos ⟨dstInside, srcInside⟩

/-- Two copies to consecutive places at the start of a block. -/
theorem memcpy_consecutive {dst src : List Byte} {first second front back : Nat}
    (room : front + back ≤ dst.length) (firstInside : first + front ≤ src.length)
    (secondInside : second + back ≤ src.length) :
    ∃ middle, memcpy dst 0 src first front = .ok middle ∧
      memcpy middle front src second back =
        .ok ((src.drop first).take front ++ (src.drop second).take back ++
          dst.drop (front + back)) := by
  have frontLength : ((src.drop first).take front).length = front := by
    rw [List.length_take, List.length_drop]
    omega
  refine ⟨(src.drop first).take front ++ dst.drop front, ?_, ?_⟩
  · rw [memcpy_ok (by omega) firstInside]
    simp
  · have gone : ((src.drop first).take front).drop (front + back) = [] :=
      List.drop_of_length_le (by omega)
    rw [memcpy_ok (by rw [List.length_append, frontLength, List.length_drop]; omega) secondInside,
      List.take_left' frontLength, List.drop_append, frontLength, List.drop_drop, gone,
      List.nil_append, Nat.add_sub_cancel' (Nat.le_add_right ..)]

theorem memcpyWithin_copied (block : List Byte) (dstPos srcPos size : Nat)
    (disjoint : dstPos + size ≤ srcPos ∨ srcPos + size ≤ dstPos)
    (dstInside : dstPos + size ≤ block.length) (srcInside : srcPos + size ≤ block.length) :
    ∃ result, memcpyWithin block dstPos srcPos size = .ok result ∧
      Copied block dstPos block srcPos size result := by
  unfold memcpyWithin
  rw [if_pos disjoint]
  exact memcpy_copied _ _ _ _ _ dstInside srcInside

end Copying

section Slots

/-- Item number `index` of a block read as an array of items of `width` bytes. -/
def slot (width : Nat) (block : List Byte) (index : Nat) : List Byte :=
  (block.drop (width * index)).take width

def slots (width : Nat) (block : List Byte) (count : Nat) : List (List Byte) :=
  (List.range count).map (slot width block)

theorem slot_getElem? (width : Nat) (block : List Byte) (index offset : Nat) :
    (slot width block index)[offset]? =
      if offset < width then block[width * index + offset]? else none := by
  unfold slot
  split
  · rename_i inside
    rw [List.getElem?_take_of_lt inside, List.getElem?_drop]
  · rename_i outside
    exact List.getElem?_eq_none (by rw [List.length_take]; omega)

theorem slot_length {width : Nat} {block : List Byte} {index count : Nat}
    (room : width * count ≤ block.length) (inside : index < count) :
    (slot width block index).length = width := by
  have lower : width * (index + 1) ≤ width * count := Nat.mul_le_mul_left width inside
  rw [Nat.mul_succ] at lower
  rw [slot, List.length_take, List.length_drop]
  omega

theorem slots_succ (width : Nat) (block : List Byte) (count : Nat) :
    slots width block (count + 1) = slots width block count ++ [slot width block count] := by
  simp [slots, List.range_succ]

theorem slots_getElem? (width : Nat) (block : List Byte) (count index : Nat) :
    (slots width block count)[index]? =
      if index < count then some (slot width block index) else none := by
  split
  · rename_i inside
    simp [slots, List.getElem?_range inside]
  · rename_i outside
    exact List.getElem?_eq_none (by simp [slots]; omega)

theorem slots_congr {width count : Nat} {before after : List Byte}
    (same : ∀ index, index < count → slot width after index = slot width before index) :
    slots width after count = slots width before count :=
  List.map_congr_left fun index member => same index (List.mem_range.mp member)

theorem load_slot {width : Nat} {block : List Byte} {index count : Nat}
    (room : width * count ≤ block.length) (inside : index < count) :
    load block (width * index) width = .ok (slot width block index) := by
  have lower : width * (index + 1) ≤ width * count := Nat.mul_le_mul_left width inside
  rw [Nat.mul_succ] at lower
  exact if_pos (by omega)

theorem slots_length (width : Nat) (block : List Byte) (count : Nat) :
    (slots width block count).length = count := by simp [slots]

theorem item_boundary {width offset : Nat} (bound index : Nat) (inside : offset < width) :
    width * bound ≤ width * index + offset ↔ bound ≤ index := by
  constructor
  · intro le
    by_contra above
    have later : width * (index + 1) ≤ width * bound := Nat.mul_le_mul_left width (by omega)
    rw [Nat.mul_succ] at later
    omega
  · intro le
    exact Nat.le_trans (Nat.mul_le_mul_left width le) (Nat.le_add_right _ _)

/-- A copy of `count` whole items replaces exactly these items. -/
theorem copied_slot {dst src result : List Byte} {width count : Nat} (dstItem srcItem : Nat)
    (copied : Copied dst (width * dstItem) src (width * srcItem) (width * count) result)
    (index : Nat) :
    slot width result index =
      if dstItem ≤ index ∧ index < dstItem + count then
        slot width src (srcItem + (index - dstItem))
      else slot width dst index := by
  apply List.ext_getElem?
  intro offset
  rw [slot_getElem?]
  by_cases inside : offset < width
  · have lower := item_boundary dstItem index inside
    have upper := item_boundary (dstItem + count) index inside
    rw [Nat.mul_add] at upper
    rw [if_pos inside, copied.2]
    by_cases hit : dstItem ≤ index ∧ index < dstItem + count
    · have source : width * srcItem + (width * index + offset - width * dstItem) =
          width * (srcItem + (index - dstItem)) + offset := by
        have split : width * index = width * dstItem + width * (index - dstItem) := by
          rw [← Nat.mul_add]; congr 1; omega
        rw [Nat.mul_add]; omega
      rw [if_pos (by omega), if_pos hit, slot_getElem?, if_pos inside, source]
    · rw [if_neg (by omega), if_neg hit, slot_getElem?, if_pos inside]
  · rw [if_neg inside]
    split <;> rw [slot_getElem?, if_neg inside]

/-- Moving the items behind one place a step to the front takes that one out. -/
theorem slots_moved {block result : List Byte} {width index count : Nat}
    (inside : index < count)
    (moved : Copied block (width * index) block (width * (index + 1))
      (width * (count - 1 - index)) result) :
    slots width result (count - 1) = (slots width block count).eraseIdx index := by
  have cells := copied_slot index (index + 1) moved
  apply List.ext_getElem?
  intro place
  rw [slots_getElem?, List.getElem?_eraseIdx, slots_getElem?, slots_getElem?]
  by_cases front : place < index
  · rw [if_pos (by omega), if_pos front, if_pos (by omega), cells, if_neg (by omega)]
  · rw [if_neg front]
    by_cases back : place < count - 1
    · have source : index + 1 + (place - index) = place + 1 := by omega
      rw [if_pos back, if_pos (by omega), cells, if_pos (by omega), source]
    · rw [if_neg back, if_neg (by omega)]

/-- Items of a block do not change when bytes are added behind it. -/
theorem slot_append {width : Nat} {front back : List Byte} {index count : Nat}
    (room : width * count ≤ front.length) (inside : index < count) :
    slot width (front ++ back) index = slot width front index := by
  apply List.ext_getElem?
  intro offset
  rw [slot_getElem?, slot_getElem?]
  split
  · rename_i within
    have lower : width * (index + 1) ≤ width * count := Nat.mul_le_mul_left width inside
    rw [Nat.mul_succ] at lower
    exact List.getElem?_append_left (by omega)
  · rfl

theorem slots_bytes (width : Nat) (block : List Byte) (first count : Nat) :
    ((List.range' first count).map (slot width block)).flatten =
      (block.drop (width * first)).take (width * count) := by
  induction count generalizing first with
  | zero => simp
  | succ count ih =>
      rw [List.range'_succ, List.map_cons, List.flatten_cons, ih, slot, Nat.mul_succ,
        Nat.mul_succ, Nat.add_comm (width * count), List.take_add, List.drop_drop]

theorem flatten_take {width : Nat} {items : List (List Byte)}
    (uniform : ∀ item ∈ items, item.length = width) (count : Nat) :
    (items.take count).flatten = items.flatten.take (width * count) := by
  induction items generalizing count with
  | nil => simp
  | cons item rest ih =>
      cases count with
      | zero => simp
      | succ count =>
          have long := uniform item List.mem_cons_self
          have whole : item.take (width * count + width) = item :=
            List.take_of_length_le (by omega)
          rw [List.take_succ_cons, List.flatten_cons, List.flatten_cons,
            ih (fun other member => uniform other (List.mem_cons_of_mem item member)),
            List.take_append, Nat.mul_succ, whole, long, Nat.add_sub_cancel]

theorem flatten_drop {width : Nat} {items : List (List Byte)}
    (uniform : ∀ item ∈ items, item.length = width) (count : Nat) :
    (items.drop count).flatten = items.flatten.drop (width * count) := by
  have split : (items.take count).flatten ++ (items.drop count).flatten =
      items.flatten.take (width * count) ++ items.flatten.drop (width * count) := by
    rw [← List.flatten_append, List.take_append_drop, List.take_append_drop]
  rw [flatten_take uniform] at split
  exact List.append_cancel_left split

theorem slots_single (block : List Byte) : slots 1 block block.length = block.map ([·]) := by
  apply List.ext_getElem?
  intro index
  by_cases inside : index < block.length
  · simp only [slots, List.getElem?_map, List.getElem?_range inside,
      List.getElem?_eq_getElem inside, Option.map_some, slot, Nat.one_mul]
    rw [List.drop_eq_getElem_cons inside]
    rfl
  · rw [List.getElem?_eq_none (by rw [slots_length]; omega),
      List.getElem?_eq_none (by rw [List.length_map]; omega)]

end Slots

end Libasock.ByteBlocks
