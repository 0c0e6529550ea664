import Mathlib.Data.List.Nodup
import Mathlib.Logic.Function.Basic

/-!
A table that hands out numbers and takes them back, such as a kernel's table of
descriptors. A number may be handed out again as soon as it is not open, so a
number alone does not say which of its acquisitions is meant; `Descriptor` keeps
both. `Owned` ties the table to whoever holds descriptors: a live holder's
number is open for that holder's own acquisition. The module names no
particular program; holders are of any type.
-/

namespace Libasock.NumberReuse

structure Descriptor where
  number : Nat
  acquisition : Nat
  deriving DecidableEq, Repr

/-- One call of `close()`: whose descriptor it was issued for and which
acquisition was open under the number at that moment. -/
structure CloseCall where
  descriptor : Descriptor
  hit : Option Nat
  deriving DecidableEq, Repr

structure Table where
  opened : Nat → Option Nat
  acquired : Nat
  closes : List CloseCall

/-- The kernel picks the number; any number that is not open will do. -/
def Table.acquire (table : Table) (number : Nat) : Option (Descriptor × Table) :=
  match table.opened number with
  | some _ => none
  | none => some (⟨number, table.acquired⟩,
      { table with
        opened := Function.update table.opened number (some table.acquired)
        acquired := table.acquired + 1 })

def Table.close (table : Table) (fd : Descriptor) : Table :=
  { table with
    opened := Function.update table.opened fd.number none
    closes := table.closes ++ [⟨fd, table.opened fd.number⟩] }

/-- Each acquisition is closed at most once, and while it is the one that is open. -/
structure ClosedOnce (closes : List CloseCall) : Prop where
  once : (closes.map fun call => call.descriptor.acquisition).Nodup
  own : ∀ call ∈ closes, call.hit = some call.descriptor.acquisition

universe u
variable {Holder : Type u}

/-- `assigned` is the descriptor a holder remembers, `live` says that the holder
has neither closed nor given it up. -/
structure Owned (table : Table) (assigned : Holder → Option Descriptor) (live : Holder → Prop) :
    Prop where
  bounded : ∀ number acquisition, table.opened number = some acquisition →
    acquisition < table.acquired
  known : ∀ holder fd, assigned holder = some fd → fd.acquisition < table.acquired
  apart : ∀ left right fd other, assigned left = some fd → assigned right = some other →
    fd.acquisition = other.acquisition → left = right
  opened : ∀ holder fd, live holder → assigned holder = some fd →
    table.opened fd.number = some fd.acquisition
  home : ∀ holder fd number, assigned holder = some fd →
    table.opened number = some fd.acquisition → number = fd.number

variable {table : Table} {assigned : Holder → Option Descriptor} {live : Holder → Prop}

/-- Live holders have pairwise different numbers. -/
theorem Owned.same_number (owned : Owned table assigned live) {left right : Holder}
    {fd other : Descriptor} (liveLeft : live left) (liveRight : live right)
    (assignedLeft : assigned left = some fd) (assignedRight : assigned right = some other)
    (same : fd.number = other.number) : left = right := by
  have openLeft := owned.opened left fd liveLeft assignedLeft
  have openRight := owned.opened right other liveRight assignedRight
  rw [same, openRight] at openLeft
  exact owned.apart left right fd other assignedLeft assignedRight (Option.some.inj openLeft).symm

theorem Owned.fewer_live (owned : Owned table assigned live) {fewer : Holder → Prop}
    (stays : ∀ holder, fewer holder → live holder) : Owned table assigned fewer :=
  ⟨owned.bounded, owned.known, owned.apart,
    fun holder fd stillLive => owned.opened holder fd (stays holder stillLive), owned.home⟩

section Growth

/-- What acquiring and closing can do to a table: nothing is open that was not, except under
later acquisitions. -/
structure Grown (before after : Table) : Prop where
  acquired : before.acquired ≤ after.acquired
  opened : ∀ number acquisition, after.opened number = some acquisition →
    before.opened number = some acquisition ∨
      (before.acquired ≤ acquisition ∧ acquisition < after.acquired)

theorem Grown.refl (table : Table) : Grown table table :=
  ⟨Nat.le_refl _, fun _ _ isOpen => .inl isOpen⟩

theorem Grown.trans {first middle last : Table} (front : Grown first middle)
    (back : Grown middle last) : Grown first last := by
  refine ⟨Nat.le_trans front.acquired back.acquired, fun number acquisition isOpen => ?_⟩
  rcases back.opened number acquisition isOpen with old | ⟨later, below⟩
  · rcases front.opened number acquisition old with older | ⟨later, below⟩
    · exact .inl older
    · exact .inr ⟨later, Nat.lt_of_lt_of_le below back.acquired⟩
  · exact .inr ⟨Nat.le_trans front.acquired later, below⟩

theorem Grown.close (table : Table) (fd : Descriptor) : Grown table (table.close fd) := by
  refine ⟨Nat.le_refl _, fun number acquisition isOpen => .inl ?_⟩
  by_cases same : number = fd.number
  · subst same
    simp [Table.close] at isOpen
  · simpa [Table.close, same] using isOpen

end Growth

section Acquire

variable {number : Nat} {fd : Descriptor} {after : Table}
  (acquires : table.acquire number = some (fd, after))
include acquires

theorem acquire_shape : table.opened number = none ∧ fd = ⟨number, table.acquired⟩ ∧
    after = { table with
      opened := Function.update table.opened number (some table.acquired)
      acquired := table.acquired + 1 } := by
  unfold Table.acquire at acquires
  split at acquires
  · cases acquires
  · rename_i free
    cases acquires
    exact ⟨free, rfl, rfl⟩

theorem Grown.acquire : Grown table after := by
  obtain ⟨_, rfl, rfl⟩ := acquire_shape acquires
  refine ⟨Nat.le_succ _, fun other acquisition isOpen => ?_⟩
  by_cases same : other = number
  · subst same
    simp only [Function.update_self, Option.some.injEq] at isOpen
    exact .inr ⟨Nat.le_of_eq isOpen, isOpen ▸ Nat.lt_succ_self _⟩
  · simp only [Function.update_of_ne same] at isOpen
    exact .inl isOpen

/-- A holder may be given the new descriptor, whatever it remembered before. -/
theorem Owned.acquire [DecidableEq Holder] (owned : Owned table assigned live) (holder : Holder) :
    Owned after (Function.update assigned holder (some fd))
      (fun other => other = holder ∨ live other) := by
  obtain ⟨free, rfl, rfl⟩ := acquire_shape acquires
  constructor
  case bounded =>
    intro other acquisition isOpen
    by_cases same : other = number
    · subst same
      simp only [Function.update_self, Option.some.injEq] at isOpen
      simp only
      omega
    · simp only [Function.update_of_ne same] at isOpen
      exact Nat.lt_succ_of_lt (owned.bounded other acquisition isOpen)
  case known =>
    intro other otherFd remembers
    by_cases same : other = holder
    · subst same
      simp only [Function.update_self, Option.some.injEq] at remembers
      subst remembers
      exact Nat.lt_succ_self _
    · rw [Function.update_of_ne same] at remembers
      exact Nat.lt_succ_of_lt (owned.known other otherFd remembers)
  case apart =>
    intro left right leftFd rightFd leftRemembers rightRemembers same
    by_cases isLeft : left = holder <;> by_cases isRight : right = holder
    · rw [isLeft, isRight]
    · rw [isLeft, Function.update_self, Option.some.injEq] at leftRemembers
      rw [Function.update_of_ne isRight] at rightRemembers
      -- the new acquisition is larger than every one remembered so far
      have known := owned.known right rightFd rightRemembers
      rw [← same, ← leftRemembers] at known
      exact absurd known (Nat.lt_irrefl _)
    · rw [isRight, Function.update_self, Option.some.injEq] at rightRemembers
      rw [Function.update_of_ne isLeft] at leftRemembers
      have known := owned.known left leftFd leftRemembers
      rw [same, ← rightRemembers] at known
      exact absurd known (Nat.lt_irrefl _)
    · rw [Function.update_of_ne isLeft] at leftRemembers
      rw [Function.update_of_ne isRight] at rightRemembers
      exact owned.apart left right leftFd rightFd leftRemembers rightRemembers same
  case opened =>
    intro other otherFd isLive remembers
    by_cases same : other = holder
    · subst same
      rw [Function.update_self, Option.some.injEq] at remembers
      subst remembers
      exact Function.update_self ..
    · rw [Function.update_of_ne same] at remembers
      have isOpen := owned.opened other otherFd (isLive.resolve_left same) remembers
      have apart : otherFd.number ≠ number := by
        intro hit
        rw [hit, free] at isOpen
        cases isOpen
      exact (Function.update_of_ne apart ..).trans isOpen
  case home =>
    intro other otherFd place remembers isOpen
    by_cases same : other = holder
    · subst same
      rw [Function.update_self, Option.some.injEq] at remembers
      subst remembers
      by_contra away
      simp only [Function.update_of_ne away] at isOpen
      exact Nat.lt_irrefl _ (owned.bounded place _ isOpen)
    · rw [Function.update_of_ne same] at remembers
      by_cases hit : place = number
      · subst hit
        simp only [Function.update_self, Option.some.injEq] at isOpen
        have known := owned.known other otherFd remembers
        rw [← isOpen] at known
        exact absurd known (Nat.lt_irrefl _)
      · simp only [Function.update_of_ne hit] at isOpen
        exact owned.home other otherFd place remembers isOpen

end Acquire

section Close

/-- A close that frees no other live holder's number keeps every other holder. -/
theorem Owned.close {fd : Descriptor} (owned : Owned table assigned live)
    {fewer : Holder → Prop} (stays : ∀ other, fewer other → live other)
    (spared : ∀ other otherFd, fewer other → assigned other = some otherFd →
      otherFd.number ≠ fd.number) : Owned (table.close fd) assigned fewer := by
  constructor
  case bounded =>
    intro number acquisition isOpen
    by_cases same : number = fd.number
    · subst same
      simp [Table.close] at isOpen
    · exact owned.bounded number acquisition (by simpa [Table.close, same] using isOpen)
  case known => exact owned.known
  case apart => exact owned.apart
  case opened =>
    intro other otherFd isLive remembers
    have apart := spared other otherFd isLive remembers
    simpa [Table.close, apart] using owned.opened other otherFd (stays other isLive) remembers
  case home =>
    intro other otherFd place remembers isOpen
    by_cases hit : place = fd.number
    · subst hit
      simp [Table.close] at isOpen
    · exact owned.home other otherFd place remembers (by simpa [Table.close, hit] using isOpen)

/-- A live holder closes its own descriptor and stops being live. -/
theorem Owned.close_own {fd : Descriptor} {holder : Holder} (owned : Owned table assigned live)
    (isLive : live holder) (remembers : assigned holder = some fd) :
    Owned (table.close fd) assigned (fun other => live other ∧ other ≠ holder) := by
  apply owned.close (fun other stays => stays.1)
  rintro other otherFd ⟨otherLive, different⟩ otherRemembers same
  exact different (owned.same_number otherLive isLive otherRemembers remembers same)

/-- A stale close is harmless exactly when the number is not open again. -/
theorem Owned.close_unused {fd : Descriptor} (owned : Owned table assigned live)
    (unused : table.opened fd.number = none) : Owned (table.close fd) assigned live := by
  apply owned.close (fun other stays => stays)
  intro other otherFd isLive remembers same
  have isOpen := owned.opened other otherFd isLive remembers
  rw [same, unused] at isOpen
  cases isOpen

/-- A descriptor that is closed before anybody is given it. -/
theorem Owned.acquire_close {number : Nat} {fd : Descriptor} {after : Table}
    (acquires : table.acquire number = some (fd, after)) (owned : Owned table assigned live) :
    Owned (after.close fd) assigned live := by
  obtain ⟨free, rfl, rfl⟩ := acquire_shape acquires
  constructor
  case bounded =>
    intro other acquisition isOpen
    by_cases same : other = number
    · subst same
      simp [Table.close] at isOpen
    · simp only [Table.close, Function.update_of_ne same] at isOpen
      exact Nat.lt_succ_of_lt (owned.bounded other acquisition isOpen)
  case known =>
    intro holder fd remembers
    exact Nat.lt_succ_of_lt (owned.known holder fd remembers)
  case apart => exact owned.apart
  case opened =>
    intro holder fd isLive remembers
    have isOpen := owned.opened holder fd isLive remembers
    have apart : fd.number ≠ number := by
      intro hit
      rw [hit, free] at isOpen
      cases isOpen
    simpa [Table.close, apart] using isOpen
  case home =>
    intro holder fd place remembers isOpen
    by_cases hit : place = number
    · subst hit
      simp [Table.close] at isOpen
    · simp only [Table.close, Function.update_of_ne hit] at isOpen
      exact owned.home holder fd place remembers isOpen

/-- A holder forgets its descriptor. -/
theorem Owned.forget [DecidableEq Holder] (owned : Owned table assigned live) (holder : Holder) :
    Owned table (Function.update assigned holder none) live := by
  have kept : ∀ other fd, Function.update assigned holder none other = some fd →
      assigned other = some fd := by
    intro other fd remembers
    by_cases same : other = holder
    · subst same
      simp at remembers
    · rwa [Function.update_of_ne same] at remembers
  exact ⟨owned.bounded, fun other fd remembers => owned.known other fd (kept other fd remembers),
    fun left right fd other leftRemembers rightRemembers =>
      owned.apart left right fd other (kept left fd leftRemembers) (kept right other rightRemembers),
    fun other fd isLive remembers => owned.opened other fd isLive (kept other fd remembers),
    fun other fd place remembers => owned.home other fd place (kept other fd remembers)⟩

/-- A live holder closes its descriptor and forgets it, to be given another one later. -/
theorem Owned.close_forget [DecidableEq Holder] {fd : Descriptor} {holder : Holder}
    (owned : Owned table assigned live) (isLive : live holder)
    (remembers : assigned holder = some fd) :
    Owned (table.close fd) (Function.update assigned holder none) live := by
  have gone := (owned.close_own isLive remembers).forget holder
  refine ⟨gone.bounded, gone.known, gone.apart, ?_, gone.home⟩
  intro other otherFd otherLive otherRemembers
  by_cases same : other = holder
  · subst same
    simp at otherRemembers
  · exact gone.opened other otherFd ⟨otherLive, same⟩ otherRemembers

end Close

section Once

/-- The calls so far are in order, and none of them was for a live holder. -/
structure Settled (table : Table) (assigned : Holder → Option Descriptor) (live : Holder → Prop) :
    Prop where
  once : ClosedOnce table.closes
  known : ∀ call ∈ table.closes, call.descriptor.acquisition < table.acquired
  past : ∀ call ∈ table.closes, ∀ holder fd, live holder → assigned holder = some fd →
    fd.acquisition ≠ call.descriptor.acquisition

theorem Settled.fewer_live (settled : Settled table assigned live) {fewer : Holder → Prop}
    (stays : ∀ holder, fewer holder → live holder) : Settled table assigned fewer :=
  ⟨settled.once, settled.known,
    fun call member holder fd stillLive => settled.past call member holder fd (stays holder stillLive)⟩

theorem Settled.acquire [DecidableEq Holder] {number : Nat} {fd : Descriptor} {after : Table}
    (acquires : table.acquire number = some (fd, after)) (settled : Settled table assigned live)
    (holder : Holder) :
    Settled after (Function.update assigned holder (some fd))
      (fun other => other = holder ∨ live other) := by
  obtain ⟨_, rfl, rfl⟩ := acquire_shape acquires
  refine ⟨settled.once, fun call member => Nat.lt_succ_of_lt (settled.known call member), ?_⟩
  intro call member other otherFd isLive remembers
  by_cases same : other = holder
  · subst same
    rw [Function.update_self, Option.some.injEq] at remembers
    subst remembers
    exact Nat.ne_of_gt (settled.known call member)
  · rw [Function.update_of_ne same] at remembers
    exact settled.past call member other otherFd (isLive.resolve_left same) remembers

theorem Settled.close_own {fd : Descriptor} {holder : Holder}
    (settled : Settled table assigned live) (owned : Owned table assigned live)
    (isLive : live holder) (remembers : assigned holder = some fd) :
    Settled (table.close fd) assigned (fun other => live other ∧ other ≠ holder) := by
  have isOpen := owned.opened holder fd isLive remembers
  have new : ∀ call ∈ table.closes, call.descriptor.acquisition ≠ fd.acquisition := by
    intro call member
    exact (settled.past call member holder fd isLive remembers).symm
  have split : ∀ call ∈ (table.close fd).closes,
      call ∈ table.closes ∨ call = ⟨fd, some fd.acquisition⟩ := by
    intro call member
    simpa [Table.close, isOpen] using member
  constructor
  case once =>
    constructor
    · simp only [Table.close, List.map_append, List.map_cons, List.map_nil]
      rw [List.nodup_append_comm]
      refine List.nodup_cons.mpr ⟨?_, settled.once.once⟩
      intro hit
      obtain ⟨call, member, same⟩ := List.mem_map.mp hit
      exact new call member same
    · intro call member
      rcases split call member with before | rfl
      · exact settled.once.own call before
      · rfl
  case known =>
    intro call member
    rcases split call member with before | rfl
    · exact settled.known call before
    · exact owned.known holder fd remembers
  case past =>
    rintro call member other otherFd ⟨otherLive, different⟩ otherRemembers
    rcases split call member with before | rfl
    · exact settled.past call before other otherFd otherLive otherRemembers
    · intro same
      exact different (owned.apart other holder otherFd fd otherRemembers remembers same)

theorem Settled.acquire_close {number : Nat} {fd : Descriptor} {after : Table}
    (acquires : table.acquire number = some (fd, after))
    (settled : Settled table assigned live) (owned : Owned table assigned live) :
    Settled (after.close fd) assigned live := by
  obtain ⟨free, rfl, rfl⟩ := acquire_shape acquires
  have split : ∀ call, call ∈ table.closes ++ [⟨⟨number, table.acquired⟩, some table.acquired⟩] →
      call ∈ table.closes ∨ call = ⟨⟨number, table.acquired⟩, some table.acquired⟩ := by
    intro call member
    simpa using member
  refine ⟨⟨?_, ?_⟩, ?_, ?_⟩ <;> simp only [Table.close, Function.update_self]
  · simp only [List.map_append, List.map_cons, List.map_nil]
    rw [List.nodup_append_comm]
    refine List.nodup_cons.mpr ⟨?_, settled.once.once⟩
    intro hit
    obtain ⟨call, member, same⟩ := List.mem_map.mp hit
    exact absurd same (Nat.ne_of_lt (settled.known call member))
  · intro call member
    rcases split call member with before | rfl
    · exact settled.once.own call before
    · rfl
  · intro call member
    rcases split call member with before | rfl
    · exact Nat.lt_succ_of_lt (settled.known call before)
    · exact Nat.lt_succ_self _
  · intro call member holder fd isLive remembers
    rcases split call member with before | rfl
    · exact settled.past call before holder fd isLive remembers
    · exact Nat.ne_of_lt (owned.known holder fd remembers)

theorem Settled.forget [DecidableEq Holder] (settled : Settled table assigned live)
    (holder : Holder) : Settled table (Function.update assigned holder none) live := by
  refine ⟨settled.once, settled.known, ?_⟩
  intro call member other fd isLive remembers
  by_cases same : other = holder
  · subst same
    simp at remembers
  · rw [Function.update_of_ne same] at remembers
    exact settled.past call member other fd isLive remembers

theorem Settled.close_forget [DecidableEq Holder] {fd : Descriptor} {holder : Holder}
    (settled : Settled table assigned live) (owned : Owned table assigned live)
    (isLive : live holder) (remembers : assigned holder = some fd) :
    Settled (table.close fd) (Function.update assigned holder none) live := by
  have gone := (settled.close_own owned isLive remembers).forget holder
  refine ⟨gone.once, gone.known, ?_⟩
  intro call member other otherFd otherLive otherRemembers
  by_cases same : other = holder
  · subst same
    simp at otherRemembers
  · exact gone.past call member other otherFd ⟨otherLive, same⟩ otherRemembers

end Once

end Libasock.NumberReuse
