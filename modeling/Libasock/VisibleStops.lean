import Libasock.SocketContents

/-!
What a user sees of a connection when its worker stops. The stop paths of both
workers drop the reference of every entry they still have and leave `m_state` as
it is, while a close drops the reference and sets `Failed`. So a stop ends a
connection visibly only where a close has done it before.
-/

namespace Libasock.VisibleStops
open ByteBlocks NumberReuse ReturnCodes ConnectionObjects WorkerWorld ReferenceCounts SocketContents

/-- `m_state` leaves `Idle` in `asock_connect` and in the accept iteration only. -/
def InUse (object : Object) : Prop := object.con.mState ≠ .idle

/-- Every connection in use that a user still holds is `Failed`, and of its references only
the user's is left. -/
def EndedVisibly (world : World) : Prop :=
  ∀ con ∈ world.held, ∀ object, world.objects con = some object → InUse object →
    object.con.mState = .failed ∧ object.con.mRefCounter = 1 ∧ object.released = false

/-- No worker has a reference to a connection in use that a user still holds. -/
def Unserved (world : World) : Prop :=
  ∀ con ∈ world.held, ∀ object, world.objects con = some object → InUse object →
    object.con.mRefCounter = 1

instance (world : World) : Decidable (Unserved world) :=
  inferInstanceAs (Decidable (∀ con ∈ world.held, ∀ object ∈ world.objects con,
    object.con.mState ≠ .idle → object.con.mRefCounter = 1))

/-- The worker that serves the entries has its reference exactly to what has not failed. -/
def Shared (world : World) (served : List ConRef) : Prop :=
  ∀ con ∈ world.held, ∀ object, world.objects con = some object → InUse object →
    object.released = false ∧ (object.con.mRefCounter = 1 ↔ object.con.mState = .failed) ∧
      (object.con.mState = .failed → con ∉ served)

section Stops

variable {world : World} {con other : ConRef}

theorem destroy_other (different : other ≠ con) :
    (world.destroyAsock con).objects other = world.objects other := by
  unfold World.destroyAsock
  split
  · rfl
  · split
    · rw [close_objects]
      simp [World.put, different]
    · simp [World.put, different]

theorem destroyAll_absent (cons : List ConRef) (absent : con ∉ cons) :
    (world.destroyAll cons).objects con = world.objects con := by
  induction cons with
  | nil => rfl
  | cons first rest ih =>
      have different : con ≠ first := by
        rintro rfl
        exact absent List.mem_cons_self
      rw [destroyAll_cons, destroy_other different]
      exact ih fun member => absent (List.mem_cons_of_mem first member)

theorem stop_ends (served : List ConRef) (shared : Shared world served) :
    EndedVisibly (world.destroyAll served) ↔ Unserved world := by
  have lists := destroyAll_lists world served
  have same := view_destroyAll standing_uncounted world served
  constructor
  · intro ended con holds object found inUse
    have here := congrFun same con
    rw [view, view, found, Option.map_some] at here
    obtain ⟨after, foundAfter, equal⟩ := Option.map_eq_some_iff.mp here
    simp only [standing, Prod.mk.injEq] at equal
    have inUseAfter : InUse after := by
      unfold InUse
      rw [equal.2]
      exact inUse
    obtain ⟨failed, _⟩ := ended con (lists.held ▸ holds) after foundAfter inUseAfter
    exact (shared con holds object found inUse).2.1.mpr (equal.2 ▸ failed)
  · intro unserved con holds after foundAfter inUseAfter
    rw [lists.held] at holds
    have here := congrFun same con
    rw [view, view, foundAfter, Option.map_some] at here
    obtain ⟨object, found, equal⟩ := Option.map_eq_some_iff.mp here.symm
    simp only [standing, Prod.mk.injEq] at equal
    have inUse : InUse object := by
      unfold InUse
      rw [equal.2]
      exact inUseAfter
    obtain ⟨alive, level, unlisted⟩ := shared con holds object found inUse
    have single := unserved con holds object found inUse
    have failed := level.mp single
    rw [destroyAll_absent served (unlisted failed), found, Option.some.injEq] at foundAfter
    subst foundAfter
    exact ⟨failed, single, alive⟩

end Stops

end Libasock.VisibleStops
