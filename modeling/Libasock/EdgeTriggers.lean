import Mathlib.Data.List.Nodup

/-!
Edge-triggered readiness: a source is latched when something happens to it, a
wait moves some of the latched sources into a batch and forgets their latch, and
the batch is then visited entry by entry. A source that is `Noticed` will still
be looked at. The module knows neither what a source is nor what its mask says.
-/

namespace Libasock.EdgeTriggers

universe u
variable {Mask : Type u}

structure Poll (Mask : Type u) where
  latched : List Nat
  batch : List (Nat × Mask)

/-- The source is latched, or in the batch with a mask that covers what is to be done. -/
def Noticed (covers : Mask → Prop) (poll : Poll Mask) (source : Nat) : Prop :=
  source ∈ poll.latched ∨ ∃ mask, (source, mask) ∈ poll.batch ∧ covers mask

def Poll.raise (poll : Poll Mask) (source : Nat) : Poll Mask :=
  { poll with latched := source :: poll.latched }

/-- Sources that no longer exist lose their latch; their entries of the batch stay. -/
def Poll.prune (poll : Poll Mask) (isLive : Nat → Bool) : Poll Mask :=
  { poll with latched := poll.latched.filter isLive }

/-- A wait may begin only when the last batch has been visited. -/
def Poll.wait (poll : Poll Mask) (maxEvents : Nat) (taken : List (Nat × Mask)) :
    Option (Poll Mask) :=
  if poll.batch.isEmpty ∧ taken.length ≤ maxEvents ∧ (taken.map Prod.fst).Nodup ∧
      ∀ source ∈ taken.map Prod.fst, source ∈ poll.latched then
    some ⟨poll.latched.filter fun source => source ∉ taken.map Prod.fst, taken⟩
  else none

def Poll.next [DecidableEq Mask] (poll : Poll Mask) (source : Nat) (mask : Mask) :
    Option (Poll Mask) :=
  match poll.batch with
  | [] => none
  | entry :: rest => if entry = (source, mask) then some { poll with batch := rest } else none

/-- Nothing is left to look at. -/
def Poll.quiet (poll : Poll Mask) : Bool := poll.latched.isEmpty && poll.batch.isEmpty

variable {covers : Mask → Prop} {poll after : Poll Mask} {source : Nat}

theorem quiet_unnoticed (quiet : poll.quiet = true) : ¬ Noticed covers poll source := by
  simp only [Poll.quiet, Bool.and_eq_true, List.isEmpty_iff] at quiet
  obtain ⟨latched, batch⟩ := quiet
  simp [Noticed, latched, batch]

theorem noticed_raised (covers : Mask → Prop) (poll : Poll Mask) (source : Nat) :
    Noticed covers (poll.raise source) source :=
  .inl List.mem_cons_self

theorem noticed_raise (other : Nat) (noticed : Noticed covers poll source) :
    Noticed covers (poll.raise other) source :=
  noticed.imp_left fun latched => List.mem_cons_of_mem other latched

theorem noticed_prune {isLive : Nat → Bool} (noticed : Noticed covers poll source)
    (stays : isLive source = true) : Noticed covers (poll.prune isLive) source :=
  noticed.imp_left fun latched => List.mem_filter.mpr ⟨latched, stays⟩

/-- A wait loses nothing as long as the masks it reports cover what there is to do. -/
theorem noticed_wait {maxEvents : Nat} {taken : List (Nat × Mask)}
    (waits : poll.wait maxEvents taken = some after) (noticed : Noticed covers poll source)
    (reported : ∀ mask, (source, mask) ∈ taken → covers mask) : Noticed covers after source := by
  unfold Poll.wait at waits
  split at waits
  · rename_i allowed
    obtain ⟨empty, _⟩ := allowed
    cases waits
    have latched : source ∈ poll.latched := by
      refine noticed.resolve_right ?_
      rintro ⟨mask, member, _⟩
      rw [List.isEmpty_iff.mp empty] at member
      cases member
    by_cases moved : source ∈ taken.map Prod.fst
    · obtain ⟨⟨_, mask⟩, member, rfl⟩ := List.mem_map.mp moved
      exact .inr ⟨mask, member, reported mask member⟩
    · exact .inl (List.mem_filter.mpr ⟨latched, by simpa using moved⟩)
  · cases waits

theorem next_head [DecidableEq Mask] {visited : Nat} {mask : Mask}
    (visits : poll.next visited mask = some after) :
    after.latched = poll.latched ∧ poll.batch = (visited, mask) :: after.batch := by
  unfold Poll.next at visits
  split at visits
  · cases visits
  · rename_i entry rest head
    split at visits
    · rename_i same
      cases visits
      exact ⟨rfl, by rw [head, same]⟩
    · cases visits

/-- A visit concerns its own source only. -/
theorem noticed_next [DecidableEq Mask] {visited : Nat} {mask : Mask}
    (visits : poll.next visited mask = some after) (noticed : Noticed covers poll source) :
    Noticed covers after source ∨ (source = visited ∧ covers mask) := by
  obtain ⟨latches, head⟩ := next_head visits
  rcases noticed with latched | ⟨other, member, covered⟩
  · exact .inl (.inl (latches ▸ latched))
  · rw [head] at member
    cases List.mem_cons.mp member with
    | inl here =>
        cases here
        exact .inr ⟨rfl, covered⟩
    | inr later => exact .inl (.inr ⟨other, later, covered⟩)

section Backwards

theorem of_noticed_raise {other : Nat} (noticed : Noticed covers (poll.raise other) source)
    (different : other ≠ source) : Noticed covers poll source := by
  refine noticed.imp_left fun latched => ?_
  exact (List.mem_cons.mp latched).resolve_left (Ne.symm different)

theorem of_noticed_prune {isLive : Nat → Bool}
    (noticed : Noticed covers (poll.prune isLive) source) : Noticed covers poll source :=
  noticed.imp_left fun latched => (List.mem_filter.mp latched).1

theorem of_noticed_wait {maxEvents : Nat} {taken : List (Nat × Mask)}
    (waits : poll.wait maxEvents taken = some after) (noticed : Noticed covers after source) :
    Noticed covers poll source := by
  unfold Poll.wait at waits
  split at waits
  · rename_i allowed
    cases waits
    rcases noticed with latched | ⟨mask, member, _⟩
    · exact .inl (List.mem_filter.mp latched).1
    · exact .inl (allowed.2.2.2 source (List.mem_map.mpr ⟨(source, mask), member, rfl⟩))
  · cases waits

theorem of_noticed_next [DecidableEq Mask] {visited : Nat} {mask : Mask}
    (visits : poll.next visited mask = some after) (noticed : Noticed covers after source) :
    Noticed covers poll source := by
  obtain ⟨latches, head⟩ := next_head visits
  rcases noticed with latched | ⟨other, member, covered⟩
  · exact .inl (latches ▸ latched)
  · exact .inr ⟨other, by rw [head]; exact List.mem_cons_of_mem _ member, covered⟩

end Backwards

end Libasock.EdgeTriggers
