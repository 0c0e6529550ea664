import Mathlib.Data.List.Basic
import Mathlib.Data.Nat.Basic

/-!
Windows on a ring of cells. `window cell capacity head count` lists the cells
met by walking `count` steps from `head` modulo `capacity`. Two consecutive
windows join, a window is one straight run of cells or two, writing behind a
window extends it, and a wrapped window survives a growth that moves its second
run behind the old end. The module names no particular data structure.
-/

namespace Libasock.RingWindows

universe u
variable {Item : Type u}

def window (cell : Nat → Item) (capacity head count : Nat) : List Item :=
  (List.range count).map fun offset => cell ((head + offset) % capacity)

def straight (cell : Nat → Item) (first count : Nat) : List Item :=
  (List.range' first count).map cell

@[simp] theorem window_length (cell : Nat → Item) (capacity head count : Nat) :
    (window cell capacity head count).length = count := by simp [window]

theorem straight_eq_range (cell : Nat → Item) (first count : Nat) :
    straight cell first count = (List.range count).map fun offset => cell (first + offset) := by
  rw [straight, List.range'_eq_map_range, List.map_map]
  rfl

theorem wrap_once {head offset capacity : Nat} (headInside : head < capacity)
    (once : offset ≤ capacity) :
    (head + offset) % capacity =
      if head + offset < capacity then head + offset else head + offset - capacity := by
  split
  · rename_i before
    exact Nat.mod_eq_of_lt before
  · rename_i past
    rw [Nat.mod_eq_sub_mod (by omega), Nat.mod_eq_of_lt (by omega)]

/-- A position that comes to the end, or stays before it, is set back to the start. -/
theorem wrap_end {position capacity : Nat} (inside : position ≤ capacity) :
    (if position = capacity then 0 else position) = position % capacity := by
  split
  · rename_i whole
    rw [whole, Nat.mod_self]
  · exact (Nat.mod_eq_of_lt (by omega)).symm

/-- A position that goes past the end comes to what is left after it. -/
theorem wrap_past {head count capacity : Nat} (headInside : head < capacity)
    (bounded : count ≤ capacity) (past : capacity < head + count) :
    (if count - (capacity - head) = capacity then 0 else count - (capacity - head)) =
      (head + count) % capacity := by
  rw [if_neg (by omega), wrap_once headInside bounded, if_neg (by omega)]
  omega

/-- Walking `front + back` steps is walking `front` steps, then `back` more. -/
theorem window_split (cell : Nat → Item) (capacity head front back : Nat) :
    window cell capacity head (front + back) =
      window cell capacity head front ++ window cell capacity ((head + front) % capacity) back := by
  rw [window, window, window, List.range_add, List.map_append, List.map_map]
  congr 1
  apply List.map_congr_left
  intro offset _
  simp only [Function.comp_apply, Nat.mod_add_mod, Nat.add_assoc]

theorem window_take (cell : Nat → Item) (capacity head : Nat) {front count : Nat}
    (le : front ≤ count) :
    (window cell capacity head count).take front = window cell capacity head front := by
  obtain ⟨back, rfl⟩ := Nat.exists_eq_add_of_le le
  rw [window_split, List.take_left' (window_length ..)]

theorem window_drop (cell : Nat → Item) (capacity head : Nat) {front count : Nat}
    (le : front ≤ count) :
    (window cell capacity head count).drop front =
      window cell capacity ((head + front) % capacity) (count - front) := by
  obtain ⟨back, rfl⟩ := Nat.exists_eq_add_of_le le
  rw [window_split, List.drop_left' (window_length ..), Nat.add_sub_cancel_left]

theorem window_straight (cell : Nat → Item) {capacity head count : Nat}
    (unwrapped : head + count ≤ capacity) :
    window cell capacity head count = straight cell head count := by
  rw [straight_eq_range, window]
  apply List.map_congr_left
  intro offset member
  have inside := List.mem_range.mp member
  rw [Nat.mod_eq_of_lt (by omega)]

theorem window_wrapped (cell : Nat → Item) {capacity head count : Nat}
    (headInside : head < capacity) (wrapped : capacity ≤ head + count) (once : count ≤ capacity) :
    window cell capacity head count =
      straight cell head (capacity - head) ++ straight cell 0 (head + count - capacity) := by
  have split : count = (capacity - head) + (head + count - capacity) := by omega
  have around : (head + (capacity - head)) % capacity = 0 := by
    rw [Nat.add_sub_cancel' (by omega), Nat.mod_self]
  conv_lhs => rw [split, window_split, around]
  rw [window_straight cell (by omega), window_straight cell (by omega)]

theorem window_congr {before after : Nat → Item} {capacity head count : Nat}
    (same : ∀ offset, offset < count →
      after ((head + offset) % capacity) = before ((head + offset) % capacity)) :
    window after capacity head count = window before capacity head count := by
  apply List.map_congr_left
  intro offset member
  exact same offset (List.mem_range.mp member)

theorem window_extend {before after : Nat → Item} {capacity head count : Nat} {added : List Item}
    (kept : ∀ offset, offset < count →
      after ((head + offset) % capacity) = before ((head + offset) % capacity))
    (written : window after capacity ((head + count) % capacity) added.length = added) :
    window after capacity head (count + added.length) =
      window before capacity head count ++ added := by
  rw [window_split, written, window_congr kept]

/-- Two offsets less than a full turn apart meet different cells. -/
theorem window_cells_apart {capacity head left right : Nat}
    (before : left < right) (turn : right < left + capacity) :
    (head + left) % capacity ≠ (head + right) % capacity := by
  intro same
  have multiple := Nat.sub_mod_eq_zero_of_mod_eq same.symm
  rw [Nat.add_sub_add_left] at multiple
  have turns := Nat.le_of_dvd (by omega) (Nat.dvd_of_mod_eq_zero multiple)
  omega

/-- A ring that grows keeps its window when every cell keeps its place, except
that the run wrapped to cell zero continues behind the old end. -/
theorem window_regrown {before after : Nat → Item} {capacity grown head count : Nat}
    (headInside : head < capacity) (once : count ≤ capacity) (doubled : 2 * capacity ≤ grown)
    (inPlace : ∀ pos, pos < capacity → head ≤ pos → after pos = before pos)
    (moved : ∀ pos, pos + capacity < head + count → after (capacity + pos) = before pos) :
    window after grown head count = window before capacity head count := by
  apply List.map_congr_left
  intro offset member
  have inside := List.mem_range.mp member
  rw [wrap_once headInside (by omega), Nat.mod_eq_of_lt (by omega)]
  split
  · rename_i near
    exact inPlace _ near (by omega)
  · rename_i far
    have place : head + offset = capacity + (head + offset - capacity) := by omega
    conv_lhs => rw [place]
    exact moved _ (by omega)

end Libasock.RingWindows
