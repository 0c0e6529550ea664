import Libasock.ReferenceCounts

/-!
Which connection owns which descriptor. A connection is `live` while it is
neither freed nor `Failed`; `m_sock_desc` keeps its number afterwards. The holder
`none` is the worker itself with the socket it listens on, if it has one. The
lemmas say how the shared functions move the ownership of `NumberReuse.Owned`.
-/

namespace Libasock.DescriptorOwnership
open ByteBlocks NumberReuse ReturnCodes ConnectionObjects WorkerWorld ReferenceCounts

def assigned (world : World) (listening : Option Descriptor) : Option ConRef → Option Descriptor
  | none => listening
  | some con => (world.objects con).bind fun object => object.con.mSockDesc

def Object.Live (object : Object) : Prop :=
  object.released = false ∧ object.con.mState ≠ .failed

def live (world : World) : Option ConRef → Prop
  | none => True
  | some con => ∃ object, world.objects con = some object ∧ Object.Live object

abbrev OwnedWorld (world : World) (listening : Option Descriptor) : Prop :=
  Owned world.table (assigned world listening) (live world)

abbrev SettledWorld (world : World) (listening : Option Descriptor) : Prop :=
  Settled world.table (assigned world listening) (live world)

variable {world : World} {con : ConRef} {object : Object} {listening : Option Descriptor}

theorem assigned_some {fd : Descriptor} (found : world.objects con = some object)
    (remembers : object.con.mSockDesc = some fd) :
    assigned world listening (some con) = some fd := by
  simp [assigned, found, remembers]

/-- A step that hands out no descriptor and revives nobody. -/
structure Keeps (before after : World) : Prop where
  assigned : ∀ listening, assigned after listening = assigned before listening
  live : ∀ holder, live after holder → live before holder

theorem Keeps.refl (world : World) : Keeps world world :=
  ⟨fun _ => rfl, fun _ isLive => isLive⟩

theorem Keeps.trans {first middle last : World} (front : Keeps first middle)
    (back : Keeps middle last) : Keeps first last :=
  ⟨fun listening => (back.assigned listening).trans (front.assigned listening),
    fun holder isLive => front.live holder (back.live holder isLive)⟩

theorem keeps_objects {after : World} (same : after.objects = world.objects) :
    Keeps world after := by
  constructor
  · intro listening
    funext holder
    cases holder with
    | none => rfl
    | some con => simp only [assigned, same]
  · intro holder isLive
    cases holder with
    | none => trivial
    | some con =>
        obtain ⟨object, found, alive⟩ := isLive
        exact ⟨object, same ▸ found, alive⟩

theorem keeps_put (after : Object) (found : world.objects con = some object)
    (same : after.con.mSockDesc = object.con.mSockDesc)
    (fades : Object.Live after → Object.Live object) : Keeps world (world.put con after) := by
  constructor
  · intro listening
    funext holder
    cases holder with
    | none => rfl
    | some other =>
        by_cases hit : other = con
        · subst hit
          simp [assigned, World.put, found, same]
        · simp [assigned, World.put, hit]
  · intro holder isLive
    cases holder with
    | none => trivial
    | some other =>
        obtain ⟨there, foundThere, alive⟩ := isLive
        by_cases hit : other = con
        · subst hit
          have here : after = there := by simpa [World.put] using foundThere
          exact ⟨object, found, fades (here ▸ alive)⟩
        · exact ⟨there, by simpa [World.put, hit] using foundThere, alive⟩

/-- What `put` leaves without life is not live afterwards. -/
theorem put_dead {after : Object} (dead : ¬ Object.Live after) :
    ¬ live (world.put con after) (some con) := by
  rintro ⟨there, found, alive⟩
  have here : after = there := by simpa [World.put] using found
  exact dead (here ▸ alive)

theorem owned_keeps {after : World} (owned : OwnedWorld world listening)
    (keeps : Keeps world after) (table : after.table = world.table) :
    OwnedWorld after listening := by
  unfold OwnedWorld
  rw [table, keeps.assigned]
  exact owned.fewer_live keeps.live

theorem settled_keeps {after : World} (settled : SettledWorld world listening)
    (keeps : Keeps world after) (table : after.table = world.table) :
    SettledWorld after listening := by
  unfold SettledWorld
  rw [table, keeps.assigned]
  exact settled.fewer_live keeps.live

section Listening

variable {fd : Descriptor}

theorem unlistened (world : World) (fd : Descriptor) :
    Function.update (assigned world (some fd)) none none = assigned world none := by
  funext holder
  cases holder <;> simp [assigned]

/-- The worker closes the socket it listens on. -/
theorem owned_unlisten (owned : OwnedWorld world (some fd)) :
    OwnedWorld (world.close (some fd)) none := by
  have closed := owned.close_forget (show live world none from trivial) rfl
  rw [unlistened] at closed
  exact closed

theorem settled_unlisten (settled : SettledWorld world (some fd))
    (owned : OwnedWorld world (some fd)) : SettledWorld (world.close (some fd)) none := by
  have closed := settled.close_forget owned (show live world none from trivial) rfl
  rw [unlistened] at closed
  exact closed

end Listening

section Functions

theorem setState_failed (world : World) (con : ConRef) :
    Keeps world (world.setState con .failed) ∧
    (world.setState con .failed).table = world.table ∧
    ¬ live (world.setState con .failed) (some con) := by
  unfold World.setState
  split
  · rename_i absent
    refine ⟨.refl world, rfl, ?_⟩
    rintro ⟨object, found, _⟩
    rw [absent] at found
    cases found
  · rename_i object found
    let failed : Object := { object with con := { object.con with mState := .failed } }
    have dead : ¬ Object.Live failed := fun alive => alive.2 rfl
    have faded := keeps_put failed found rfl (fun alive => absurd alive dead)
    exact ⟨faded.trans (keeps_objects rfl), rfl, put_dead dead⟩

/-- The last reference closes what the connection remembers, an earlier one nothing. -/
theorem destroy_effect (found : world.objects con = some object) :
    Keeps world (world.destroyAsock con) ∧
    ((object.con.mRefCounter ≠ 1 ∧ (world.destroyAsock con).table = world.table) ∨
      (object.con.mRefCounter = 1 ∧ ¬ live (world.destroyAsock con) (some con) ∧
        (world.destroyAsock con).table = (world.close object.con.mSockDesc).table)) := by
  unfold World.destroyAsock
  rw [found]
  simp only
  split
  · rename_i last
    simp only [Object.dropped] at last
    have dead : ¬ Object.Live { object.dropped with released := true } := fun alive => by
      cases alive.1
    have faded := keeps_put { object.dropped with released := true } found rfl
      (fun alive => absurd alive dead)
    refine ⟨faded.trans (keeps_objects (close_objects _)), .inr ⟨by omega, ?_, ?_⟩⟩
    · intro isLive
      exact put_dead dead ((keeps_objects (close_objects object.con.mSockDesc)).live _ isLive)
    · cases object.con.mSockDesc <;> rfl
  · rename_i more
    simp only [Object.dropped] at more
    exact ⟨keeps_put _ found rfl (fun alive => alive), .inl ⟨by omega, rfl⟩⟩

theorem destroy_unknown (unknown : world.objects con = none) : world.destroyAsock con = world := by
  simp only [World.destroyAsock, unknown]

theorem destroy_keeps (world : World) (con : ConRef) : Keeps world (world.destroyAsock con) := by
  cases found : world.objects con with
  | none =>
      rw [destroy_unknown found]
      exact .refl world
  | some object => exact (destroy_effect found).1

theorem destroyAll_keeps (world : World) (cons : List ConRef) :
    Keeps world (world.destroyAll cons) := by
  induction cons with
  | nil => exact .refl world
  | cons con rest ih =>
      rw [destroyAll_cons]
      exact ih.trans (destroy_keeps _ con)

/-- Closing for a live connection's own descriptor ends its life. -/
theorem owned_close_own {after : World} {fd : Descriptor} (owned : OwnedWorld world listening)
    (isLive : live world (some con)) (remembers : assigned world listening (some con) = some fd)
    (keeps : Keeps world after) (dead : ¬ live after (some con))
    (table : after.table = world.table.close fd) : OwnedWorld after listening := by
  unfold OwnedWorld
  rw [table, keeps.assigned]
  apply (owned.close_own isLive remembers).fewer_live
  intro holder stillLive
  refine ⟨keeps.live holder stillLive, ?_⟩
  intro same
  exact dead (same ▸ stillLive)

theorem settled_close_own {after : World} {fd : Descriptor}
    (settled : SettledWorld world listening) (owned : OwnedWorld world listening)
    (isLive : live world (some con)) (remembers : assigned world listening (some con) = some fd)
    (keeps : Keeps world after) (dead : ¬ live after (some con))
    (table : after.table = world.table.close fd) : SettledWorld after listening := by
  unfold SettledWorld
  rw [table, keeps.assigned]
  apply (settled.close_own owned isLive remembers).fewer_live
  intro holder stillLive
  refine ⟨keeps.live holder stillLive, ?_⟩
  intro same
  exact dead (same ▸ stillLive)

/-- Dropping a reference is harmless when it is not the last, when the connection still
owns its descriptor, or when nothing is open under the number it remembers. -/
theorem owned_destroy (owned : OwnedWorld world listening)
    (found : world.objects con = some object)
    (harmless : object.con.mRefCounter = 1 → live world (some con) ∨
      ∀ fd, object.con.mSockDesc = some fd → world.table.opened fd.number = none) :
    OwnedWorld (world.destroyAsock con) listening := by
  obtain ⟨keeps, ⟨_, table⟩ | ⟨last, dead, table⟩⟩ := destroy_effect found
  · exact owned_keeps owned keeps table
  · cases remembers : object.con.mSockDesc with
    | none =>
        rw [remembers] at table
        exact owned_keeps owned keeps table
    | some fd =>
        rw [remembers] at table
        rcases harmless last with isLive | unused
        · exact owned_close_own owned isLive (assigned_some found remembers) keeps dead table
        · unfold OwnedWorld
          rw [table, keeps.assigned]
          exact (owned.close_unused (unused fd remembers)).fewer_live keeps.live

theorem settled_destroy (settled : SettledWorld world listening)
    (owned : OwnedWorld world listening) (found : world.objects con = some object)
    (own : object.con.mRefCounter = 1 → live world (some con) ∨ object.con.mSockDesc = none) :
    SettledWorld (world.destroyAsock con) listening := by
  obtain ⟨keeps, ⟨_, table⟩ | ⟨last, dead, table⟩⟩ := destroy_effect found
  · exact settled_keeps settled keeps table
  · cases remembers : object.con.mSockDesc with
    | none =>
        rw [remembers] at table
        exact settled_keeps settled keeps table
    | some fd =>
        rw [remembers] at table
        have isLive := (own last).resolve_right (by rw [remembers]; intro absent; cases absent)
        exact settled_close_own settled owned isLive (assigned_some found remembers) keeps dead table

end Functions

section Closing

variable {index : Nat} {fd : Descriptor}

/-- The world inside `close_connection` after the `close()` and before the reference drops. -/
theorem failed_closed (found : world.objects con = some object)
    (remembers : object.con.mSockDesc = some fd) :
    let closed := (world.setState con .failed).close (some fd)
    Keeps world closed ∧ ¬ live closed (some con) ∧ closed.table = world.table.close fd ∧
    ∃ failed, closed.objects con = some failed ∧ failed.con.mSockDesc = some fd ∧
      failed.con.mRefCounter = object.con.mRefCounter := by
  obtain ⟨keeps, table, dead⟩ := setState_failed world con
  have closes : Keeps (world.setState con .failed) ((world.setState con .failed).close (some fd)) :=
    keeps_objects (close_objects (some fd))
  refine ⟨keeps.trans closes, fun isLive => dead (closes.live _ isLive), ?_, ?_⟩
  · exact congrArg (fun table => table.close fd) table
  · refine ⟨{ object with con := { object.con with mState := .failed } }, ?_, remembers, rfl⟩
    rw [close_objects]
    simp [World.setState, found, World.put]

theorem shutAt_found (found : world.objects con = some object)
    (remembers : object.con.mSockDesc = some fd) :
    world.shutAt con = (world.setState con .failed).close (some fd) := by
  simp only [World.shutAt, found, Option.bind_some, remembers]

theorem shutAt_keeps (found : world.objects con = some object)
    (remembers : object.con.mSockDesc = some fd) :
    Keeps world (world.shutAt con) ∧ ¬ live (world.shutAt con) (some con) ∧
      (world.shutAt con).table = world.table.close fd := by
  rw [shutAt_found found remembers]
  obtain ⟨keeps, dead, table, _⟩ := failed_closed found remembers
  exact ⟨keeps, dead, table⟩

/-- Up to `close()` a close ends the life of a connection that owns its descriptor. -/
theorem owned_shutAt (owned : OwnedWorld world listening) (isLive : live world (some con))
    (found : world.objects con = some object) (remembers : object.con.mSockDesc = some fd) :
    OwnedWorld (world.shutAt con) listening := by
  obtain ⟨keeps, dead, table⟩ := shutAt_keeps found remembers
  exact owned_close_own owned isLive (assigned_some found remembers) keeps dead table

theorem settled_shutAt (settled : SettledWorld world listening)
    (owned : OwnedWorld world listening) (isLive : live world (some con))
    (found : world.objects con = some object) (remembers : object.con.mSockDesc = some fd) :
    SettledWorld (world.shutAt con) listening := by
  obtain ⟨keeps, dead, table⟩ := shutAt_keeps found remembers
  exact settled_close_own settled owned isLive (assigned_some found remembers) keeps dead table

end Closing

end Libasock.DescriptorOwnership
