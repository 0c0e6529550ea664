import Mathlib.Data.List.Perm.Basic

/-!
Blocks of memory by the order of their allocation, with the books over them: who
owns a live block, and which live blocks nobody knows any more. A use or a free of
a block that is not live is recorded and not undone. The module knows neither what
a block holds nor who its owners are.
-/

namespace Libasock.BlockLedger

abbrev Block := Nat

structure Heap where
  made : Nat
  live : List Block
  /-- Nothing has been used or freed that was not live. -/
  sound : Bool
  deriving DecidableEq

def Heap.empty : Heap := ⟨0, [], true⟩

def Heap.malloc (heap : Heap) (granted : Bool) : Option Block × Heap :=
  if granted then (some heap.made, ⟨heap.made + 1, heap.made :: heap.live, heap.sound⟩)
  else (none, heap)

/-- An access through a pointer; `none` is `NULL`. -/
def Heap.touch (heap : Heap) (block : Option Block) : Heap :=
  { heap with sound := heap.sound && block.any fun block => heap.live.contains block }

def Heap.free (heap : Heap) : Option Block → Heap
  | none => heap
  | some block =>
      { heap with
        live := heap.live.erase block
        sound := heap.sound && heap.live.contains block }

/-- The block moves; a refused `realloc` leaves it where it is. -/
def Heap.realloc (heap : Heap) (block : Option Block) (granted : Bool) : Option Block × Heap :=
  if granted then (heap.free block).malloc true else (none, heap)

/-- The live blocks are the owned and the lost ones, each once. -/
structure Accounts (heap : Heap) (owned lost : List Block) : Prop where
  live : heap.live.Perm (owned ++ lost)
  once : heap.live.Nodup
  bounded : ∀ block ∈ heap.live, block < heap.made
  sound : heap.sound = true

section Rules
variable {heap : Heap} {owned others lost : List Block} {block : Block}

theorem empty_accounts : Accounts .empty [] [] := by
  refine ⟨.refl _, List.nodup_nil, ?_, rfl⟩
  intro block member
  cases member

theorem accounts_perm (accounts : Accounts heap owned lost) (same : owned.Perm others) :
    Accounts heap others lost :=
  ⟨accounts.live.trans (same.append_right lost), accounts.once, accounts.bounded, accounts.sound⟩

theorem malloc_accounts (accounts : Accounts heap owned lost) :
    Accounts (heap.malloc true).2 (heap.made :: owned) lost := by
  refine ⟨accounts.live.cons heap.made, ?_, ?_, accounts.sound⟩
  · refine List.nodup_cons.mpr ⟨?_, accounts.once⟩
    intro member
    exact Nat.lt_irrefl _ (accounts.bounded _ member)
  · intro block member
    rcases List.mem_cons.mp member with rfl | older
    · exact Nat.lt_succ_self _
    · exact Nat.lt_succ_of_lt (accounts.bounded block older)

theorem touch_accounts (accounts : Accounts heap owned lost) (member : block ∈ owned) :
    Accounts (heap.touch (some block)) owned lost := by
  have isLive : block ∈ heap.live :=
    accounts.live.mem_iff.mpr (List.mem_append_left lost member)
  exact ⟨accounts.live, accounts.once, accounts.bounded, by
    simp [Heap.touch, accounts.sound, isLive]⟩

theorem free_accounts (accounts : Accounts heap (block :: owned) lost) :
    Accounts (heap.free (some block)) owned lost := by
  have isLive : block ∈ heap.live := accounts.live.mem_iff.mpr List.mem_cons_self
  refine ⟨?_, accounts.once.erase block, ?_, ?_⟩
  · have erased := accounts.live.erase block
    rwa [List.cons_append, List.erase_cons_head] at erased
  · intro other member
    exact accounts.bounded other (List.mem_of_mem_erase member)
  · simp [Heap.free, accounts.sound, isLive]

theorem free_optional {pointer : Option Block}
    (accounts : Accounts heap (pointer.toList ++ owned) lost) :
    Accounts (heap.free pointer) owned lost := by
  cases pointer with
  | none => exact accounts
  | some block => exact free_accounts accounts

/-- The last pointer to a block is gone. -/
theorem drop_accounts (pointer : Option Block)
    (accounts : Accounts heap (pointer.toList ++ owned) lost) :
    Accounts heap owned (pointer.toList ++ lost) := by
  refine ⟨accounts.live.trans ?_, accounts.once, accounts.bounded, accounts.sound⟩
  rw [← List.append_assoc]
  exact (List.perm_append_comm).append_right lost

end Rules

/-! A ledger is a heap with its lost blocks. It serves as well for descriptors and threads:
whatever is acquired, released and forgotten. -/

section Ledgers

structure Ledger where
  heap : Heap
  lost : List Block

namespace Ledger

def empty : Ledger := ⟨.empty, []⟩

/-- What the next acquisition gives. -/
def fresh (ledger : Ledger) : Block := ledger.heap.made

def take (ledger : Ledger) : Ledger := { ledger with heap := (ledger.heap.malloc true).2 }

def touch (ledger : Ledger) (block : Option Block) : Ledger :=
  { ledger with heap := ledger.heap.touch block }

def release (ledger : Ledger) (pointer : Option Block) : Ledger :=
  { ledger with heap := ledger.heap.free pointer }

/-- The last pointer is overwritten or goes out of scope. -/
def drop (ledger : Ledger) (pointer : Option Block) : Ledger :=
  { ledger with lost := pointer.toList ++ ledger.lost }

def Holds (ledger : Ledger) (owned : List Block) : Prop :=
  Accounts ledger.heap owned ledger.lost

@[simp] theorem take_lost (ledger : Ledger) : ledger.take.lost = ledger.lost := rfl

@[simp] theorem touch_lost (ledger : Ledger) (block : Option Block) :
    (ledger.touch block).lost = ledger.lost := rfl

@[simp] theorem release_lost (ledger : Ledger) (pointer : Option Block) :
    (ledger.release pointer).lost = ledger.lost := rfl

@[simp] theorem drop_lost (ledger : Ledger) (pointer : Option Block) :
    (ledger.drop pointer).lost = pointer.toList ++ ledger.lost := rfl

variable {ledger : Ledger} {owned others : List Block} {block : Block}

theorem empty_holds : empty.Holds [] := empty_accounts

theorem Holds.perm (holds : ledger.Holds owned) (same : owned.Perm others) :
    ledger.Holds others :=
  accounts_perm holds same

theorem Holds.take (holds : ledger.Holds owned) : ledger.take.Holds (ledger.fresh :: owned) :=
  malloc_accounts holds

theorem Holds.touch (holds : ledger.Holds owned) (member : block ∈ owned) :
    (ledger.touch (some block)).Holds owned :=
  touch_accounts holds member

theorem Holds.release (pointer : Option Block) (holds : ledger.Holds (pointer.toList ++ owned)) :
    (ledger.release pointer).Holds owned :=
  free_optional holds

theorem Holds.drop (pointer : Option Block) (holds : ledger.Holds (pointer.toList ++ owned)) :
    (ledger.drop pointer).Holds owned :=
  drop_accounts pointer holds

end Ledger

end Ledgers

section Holders
universe u
variable {Holder : Type u}

/-- What the holders of a list own, with one of them set apart. -/
theorem holders_apart (blocks : Holder → List Block) {holders : List Holder} {index : Nat}
    {holder : Holder} (found : holders[index]? = some holder) :
    ∃ rest, (holders.flatMap blocks).Perm (blocks holder ++ rest) ∧
      ∀ next, ((holders.set index next).flatMap blocks).Perm (blocks next ++ rest) := by
  induction holders generalizing index with
  | nil => cases found
  | cons first more ih =>
      cases index with
      | zero =>
          cases found
          exact ⟨more.flatMap blocks, .refl _, fun next => .refl _⟩
      | succ place =>
          obtain ⟨rest, whole, changed⟩ := ih (by simpa using found)
          have turn : ∀ middle, (blocks first ++ (middle ++ rest)).Perm
              (middle ++ (blocks first ++ rest)) := by
            intro middle
            rw [← List.append_assoc, ← List.append_assoc]
            exact (List.perm_append_comm).append_right rest
          refine ⟨blocks first ++ rest, ?_, ?_⟩
          · exact (whole.append_left (blocks first)).trans (turn (blocks holder))
          · intro next
            exact ((changed next).append_left (blocks first)).trans (turn (blocks next))

end Holders

end Libasock.BlockLedger
