import Libasock.RegisteredConnections

/-!
Bytes in the socket of a connection that no `read()` has taken yet. The lemmas
say how the functions both workers share can bring such a socket about: only by
an arrival; reads, closes and new descriptors leave no new one.
-/

namespace Libasock.UnreadSockets
open ByteBlocks NumberReuse ReturnCodes ConnectionObjects WorkerWorld ReferenceCounts
  DescriptorOwnership SocketContents RegisteredConnections

/-- `MAX_EVENTS` of both workers. -/
def maxEvents : Nat := 1024

variable {world after : World} {con : ConRef} {fd : Descriptor}

/-- The connection's own socket is open and has something to read. -/
structure Unread (world : World) (con : ConRef) (fd : Descriptor) : Prop where
  remembers : assigned world none (some con) = some fd
  isOpen : world.table.opened fd.number = some fd.acquisition
  buffered : (world.sockets fd.acquisition).buffered ≠ []

theorem unread_frame (unread : Unread after con fd)
    (same : assigned after none (some con) = assigned world none (some con))
    (shrinks : Shrinks world after) (sockets : after.sockets = world.sockets) :
    Unread world con fd := by
  obtain ⟨remembers, isOpen, buffered⟩ := unread
  exact ⟨same ▸ remembers, shrinks fd.number fd.acquisition isOpen, sockets ▸ buffered⟩

theorem unread_keeps (unread : Unread after con fd) (keeps : Keeps world after)
    (shrinks : Shrinks world after) (sockets : after.sockets = world.sockets) :
    Unread world con fd :=
  unread_frame unread (congrFun (keeps.assigned none) (some con)) shrinks sockets

theorem unread_same (unread : Unread after con fd) (objects : after.objects = world.objects)
    (table : after.table = world.table) (sockets : after.sockets = world.sockets) :
    Unread world con fd :=
  unread_keeps unread (keeps_objects objects) (shrinks_table table) sockets

theorem unread_close (number : Nat) (unread : Unread (world.closeConnection number).2 con fd) :
    Unread world con fd :=
  unread_keeps unread (close_keeps world number) (close_connection_shrinks world number)
    (close_connection_sockets world number)

/-- A close takes the socket the connection is found under away. -/
theorem close_shuts_own {listening : Option Descriptor} (roster : Roster world listening)
    (alive : AllLive world) (listed : con ∈ world.mConnections.items)
    (remembers : assigned world none (some con) = some fd) :
    (world.closeConnection fd.number).2.table.opened fd.number = none := by
  obtain ⟨own, serving⟩ := roster.serving con listed
  have same := (serving_assigned serving none).symm.trans remembers
  cases same
  exact close_connection_shut (lookup_own roster alive listed serving)

theorem unread_userDestroy {target : ConRef} (destroys : world.userDestroy target = some after)
    (unread : Unread after con fd) : Unread world con fd := by
  obtain ⟨_, _, sockets, keeps, shrinks⟩ := userDestroy_effect destroys
  exact unread_keeps unread keeps shrinks sockets

theorem unread_userRead {reader : ConRef} {dst : List Byte}
    (reads : world.userRead reader dst = some after) (unread : Unread after con fd) :
    Unread world con fd := by
  have neutral := neutral_userRead reads
  obtain ⟨_, _, _, _, _, _, _, rfl⟩ := userRead_cases world reads
  exact unread_keeps unread neutral.keeps (shrinks_table neutral.table) rfl

/-- What a read leaves was there before it. -/
theorem unread_readData {number count : Nat} {answer : Allocation}
    (reads : world.readData number count answer = some after) (unread : Unread after con fd) :
    Unread world con fd := by
  obtain ⟨remembers, isOpen, buffered⟩ := unread
  obtain ⟨acquisition, _, _, cases⟩ := readData_cases world reads
  have fewer : ∀ socket : Socket,
      socket.buffered = (world.sockets acquisition).buffered.drop count →
      (Function.update world.sockets acquisition socket fd.acquisition).buffered ≠ [] →
        (world.sockets fd.acquisition).buffered ≠ [] := by
    intro socket rest left empty
    by_cases hit : fd.acquisition = acquisition
    · rw [hit, Function.update_self, rest, ← hit, empty] at left
      exact left List.drop_nil
    · rw [Function.update_of_ne hit] at left
      exact left empty
  rcases cases with ⟨_, rfl⟩ | ⟨target, object, queue, _, found, _, rfl⟩
  · exact ⟨remembers, isOpen, fewer _ rfl buffered⟩
  · refine ⟨?_, isOpen, fewer _ rfl buffered⟩
    rw [← remembers]
    by_cases hit : con = target
    · subst hit
      simp [assigned, found, World.put, World.setSocket]
    · simp [assigned, World.put, World.setSocket, hit]

theorem unread_arrive {number : Nat} {bytes : List Byte} {listening : Option Descriptor}
    (owned : OwnedWorld world listening) (arrives : world.arrive number bytes = some after)
    (unread : Unread after con fd) : Unread world con fd ∨ fd.number = number := by
  obtain ⟨acquisition, isOpen, rfl⟩ := Option.map_eq_some_iff.mp arrives
  obtain ⟨remembers, stillOpen, buffered⟩ := unread
  have known : assigned world none (some con) = some fd := remembers
  by_cases hit : fd.acquisition = acquisition
  · right
    subst hit
    exact (owned.home (some con) fd number known isOpen).symm
  · left
    exact ⟨known, stillOpen, by simpa [World.setSocket, hit] using buffered⟩

section Acquiring

variable {acquired : World} {number : Nat} {made : Asock} {infd : Descriptor}

/-- A new descriptor's socket has nothing to read. -/
theorem unread_acquire (acquires : world.acquire number = some (infd, acquired))
    (unread : Unread acquired con fd) : Unread world con fd := by
  obtain ⟨objects, table, sockets⟩ := acquire_effect acquires
  obtain ⟨_, rfl, opened⟩ := acquire_shape table
  obtain ⟨remembers, isOpen, buffered⟩ := unread
  have keeps : Keeps world acquired := keeps_objects objects
  have apart : fd.acquisition ≠ world.table.acquired := by
    intro hit
    simp [sockets, hit] at buffered
  refine ⟨by rw [← keeps.assigned]; exact remembers, ?_, ?_⟩
  · simp only [opened] at isOpen
    by_cases hit : fd.number = number
    · rw [hit, Function.update_self, Option.some.injEq] at isOpen
      exact absurd isOpen.symm apart
    · rwa [Function.update_of_ne hit] at isOpen
  · simpa [sockets, apart] using buffered

theorem unread_add (acquires : world.acquire number = some (infd, acquired))
    (remembers : made.mSockDesc = some infd) (unread : Unread (acquired.add made) con fd) :
    Unread world con fd := by
  have holds : assigned (acquired.add made) none =
      Function.update (assigned acquired none) (some acquired.created) (some infd) :=
    (added_owners acquired remembers).1
  by_cases hit : con = acquired.created
  · subst hit
    obtain ⟨_, _, sockets⟩ := acquire_effect acquires
    have own := unread.remembers
    rw [holds, Function.update_self, Option.some.injEq] at own
    subst own
    have buffered : (acquired.sockets infd.acquisition).buffered ≠ [] := unread.buffered
    simp [sockets] at buffered
  · apply unread_acquire acquires
    refine ⟨?_, unread.isOpen, unread.buffered⟩
    rw [← unread.remembers, holds, Function.update_of_ne]
    intro same
    exact hit (Option.some.inj same)

end Acquiring

end Libasock.UnreadSockets
