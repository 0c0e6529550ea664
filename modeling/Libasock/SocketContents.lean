import Libasock.DescriptorOwnership

/-!
What a connection remembers of its socket and what it has received from it.
`view` looks at one part of every object; the lemmas say which parts the shared
functions leave alone. `Heard` is the stream law of one connection: what
`asock_read` returned and what is queued are the bytes `read()` took out of the
connection's own socket.
-/

namespace Libasock.SocketContents
open ByteBlocks NumberReuse ReturnCodes TsqueueContent ConnectionObjects WorkerWorld
  ReferenceCounts DescriptorOwnership

universe u
variable {Part : Type u} {part : Object → Part}
variable {world after : World} {con other : ConRef} {object : Object} {fd : Descriptor}

def view (part : Object → Part) (world : World) (con : ConRef) : Option Part :=
  (world.objects con).map part

/-- The parts that no change of the counter shows in. -/
structure Uncounted (part : Object → Part) : Prop where
  dropped : ∀ object released, part { object.dropped with released := released } = part object
  raised : ∀ (object : Object) count,
    part { object with con := { object.con with mRefCounter := count } } = part object

section Views

theorem put_here (world : World) (con : ConRef) (next : Object) :
    (world.put con next).objects con = some next := Function.update_self ..

theorem view_objects (same : after.objects = world.objects) :
    view part after = view part world := by
  funext other
  simp only [view, same]

theorem view_put (next : Object) (found : world.objects con = some object)
    (same : part next = part object) : view part (world.put con next) = view part world := by
  funext other
  by_cases hit : other = con
  · subst hit
    simp [view, World.put, found, same]
  · simp [view, World.put, hit]

theorem view_other (next : Object) (different : other ≠ con) :
    view part (world.put con next) other = view part world other := by
  simp [view, World.put, different]

theorem view_destroy (uncounted : Uncounted part) (world : World) (con : ConRef) :
    view part (world.destroyAsock con) = view part world := by
  unfold World.destroyAsock
  split
  · rfl
  · rename_i object found
    split
    · rw [view_objects (close_objects object.con.mSockDesc)]
      exact view_put _ found (uncounted.dropped object true)
    · exact view_put _ found (uncounted.dropped object object.released)

theorem view_destroyAll (uncounted : Uncounted part) (world : World) (cons : List ConRef) :
    view part (world.destroyAll cons) = view part world := by
  induction cons with
  | nil => rfl
  | cons con rest ih => rw [destroyAll_cons, view_destroy uncounted, ih]

theorem view_incr (uncounted : Uncounted part) (world : World) (con : ConRef) :
    view part (world.counterIncr con) = view part world := by
  unfold World.counterIncr
  split
  · rfl
  · rename_i object found
    exact view_put _ found (uncounted.raised object _)

theorem view_setState (world : World) (con : ConRef) (state : AsockConState)
    (stateless : ∀ object : Object,
      part { object with con := { object.con with mState := state } } = part object) :
    view part (world.setState con state) = view part world := by
  unfold World.setState
  split
  · rfl
  · rename_i object found
    exact view_put _ found (stateless object)

theorem view_setState_other (state : AsockConState) (different : other ≠ con) :
    view part (world.setState con state) other = view part world other := by
  unfold World.setState
  split
  · rfl
  · exact view_other _ different

end Views

section Serving

def standing (object : Object) : Option Descriptor × AsockConState :=
  (object.con.mSockDesc, object.con.mState)

theorem standing_uncounted : Uncounted standing := ⟨fun _ _ => rfl, fun _ _ => rfl⟩

/-- The connection has a descriptor and is not `Failed`. -/
def Serving (world : World) (con : ConRef) (fd : Descriptor) : Prop :=
  ∃ state, view standing world con = some (some fd, state) ∧ state ≠ .failed

theorem serving_view (serving : Serving world con fd)
    (same : view standing after con = view standing world con) :
    Serving after con fd := by
  obtain ⟨state, here, unfailed⟩ := serving
  exact ⟨state, same.trans here, unfailed⟩

theorem serving_object (serving : Serving world con fd) : ∃ object,
    world.objects con = some object ∧ object.con.mSockDesc = some fd ∧
      object.con.mState ≠ .failed := by
  obtain ⟨state, here, unfailed⟩ := serving
  obtain ⟨object, found, same⟩ := Option.map_eq_some_iff.mp here
  simp only [standing, Prod.mk.injEq] at same
  exact ⟨object, found, same.1, by rw [same.2]; exact unfailed⟩

theorem object_serving (found : world.objects con = some object)
    (remembers : object.con.mSockDesc = some fd) (unfailed : object.con.mState ≠ .failed) :
    Serving world con fd :=
  ⟨object.con.mState, by simp [view, found, standing, remembers], unfailed⟩

theorem serving_assigned (serving : Serving world con fd) (listening : Option Descriptor) :
    assigned world listening (some con) = some fd := by
  obtain ⟨object, found, remembers, _⟩ := serving_object serving
  exact assigned_some found remembers

theorem serving_unique {fd other : Descriptor} (left : Serving world con fd)
    (right : Serving world con other) : fd = other := by
  have same := (serving_assigned left none).symm.trans (serving_assigned right none)
  exact Option.some.inj same

/-- Known and not `Failed`. -/
def Unfailed (world : World) (con : ConRef) : Prop :=
  ∃ descriptor state, view standing world con = some (descriptor, state) ∧ state ≠ .failed

theorem serving_unfailed (serving : Serving world con fd) : Unfailed world con := by
  obtain ⟨state, here, unfailed⟩ := serving
  exact ⟨some fd, state, here, unfailed⟩

theorem unfailed_object (unfailed : Unfailed world con) :
    ∃ object, world.objects con = some object ∧ object.con.mState ≠ .failed := by
  obtain ⟨descriptor, state, here, different⟩ := unfailed
  obtain ⟨object, found, same⟩ := Option.map_eq_some_iff.mp here
  simp only [standing, Prod.mk.injEq] at same
  exact ⟨object, found, by rw [same.2]; exact different⟩

/-- A connection that has a reference and has not failed is live. -/
theorem unfailed_live (unfailed : Unfailed world con) (freed : FreedAtZero world)
    (positive : 0 < counter world con) : live world (some con) := by
  obtain ⟨object, found, different⟩ := unfailed_object unfailed
  obtain ⟨there, foundThere, alive, _⟩ := alive_counted freed positive
  rw [found] at foundThere
  cases foundThere
  exact ⟨object, found, alive, different⟩

theorem serving_live (serving : Serving world con fd) (freed : FreedAtZero world)
    (positive : 0 < counter world con) : live world (some con) :=
  unfailed_live (serving_unfailed serving) freed positive

/-- The drop of one reference for each entry of a list of connections that have not failed:
each is still live when its turn comes. -/
theorem destroyAll_invariant (inv : World → Prop) (cons : List ConRef)
    (single : cons.Nodup) (unfailed : ∀ con ∈ cons, Unfailed world con)
    (freed : FreedAtZero world) (covered : ∀ con, (cons.count con : Int) ≤ counter world con)
    (kept : ∀ before con object, inv before → before.objects con = some object →
      live before (some con) → inv (before.destroyAsock con))
    (start : inv world) : inv (world.destroyAll cons) := by
  induction cons with
  | nil => exact start
  | cons con rest ih =>
      obtain ⟨absent, single⟩ := List.nodup_cons.mp single
      have enough : ∀ other, (rest.count other : Int) ≤ counter world other := by
        intro other
        have more := covered other
        have fewer : rest.count other ≤ (con :: rest).count other := List.count_le_count_cons
        omega
      have known : ∀ other ∈ rest, (world.objects other).isSome := by
        intro other member
        obtain ⟨object, found, _⟩ := unfailed_object (unfailed other (List.mem_cons_of_mem con member))
        rw [found]
        rfl
      have stays : Unfailed (world.destroyAll rest) con := by
        obtain ⟨descriptor, state, here, different⟩ := unfailed con List.mem_cons_self
        refine ⟨descriptor, state, ?_, different⟩
        rw [view_destroyAll standing_uncounted]
        exact here
      have positive : 0 < counter (world.destroyAll rest) con := by
        have more := covered con
        rw [List.count_cons_self] at more
        rw [destroyAll_counter rest known]
        omega
      obtain ⟨object, found, _⟩ := unfailed_object stays
      rw [destroyAll_cons]
      exact kept _ con object
        (ih single (fun other member => unfailed other (List.mem_cons_of_mem con member)) enough)
        found (unfailed_live stays (freed_destroyAll rest freed enough) positive)

end Serving

section Hearing

def receipt (object : Object) :
    Option Descriptor × TsqueueModel.Tsqueue × TsqueueModel.Tsqueue × List Byte :=
  (object.con.mSockDesc, object.con.mInQueue, object.con.mOutQueue, object.returned)

theorem receipt_uncounted : Uncounted receipt := ⟨fun _ _ => rfl, fun _ _ => rfl⟩

/-- Nothing but the bytes of its own socket, all of them and in order. -/
structure Hears (object : Object) (consumed : Nat → List Byte) : Prop where
  sound : object.con.Sound
  bytes : ∀ fd, object.con.mSockDesc = some fd →
    object.returned ++ bytesOf object.con.mInQueue = consumed fd.acquisition

def consumed (world : World) (acquisition : Nat) : List Byte :=
  (world.sockets acquisition).consumed

def Heard (world : World) (con : ConRef) : Prop :=
  ∀ object, world.objects con = some object → Hears object (consumed world)

theorem heard_view (heard : Heard world con)
    (same : view receipt after con = view receipt world con)
    (sockets : ∀ fd, assigned world none (some con) = some fd →
      consumed after fd.acquisition = consumed world fd.acquisition) : Heard after con := by
  intro object found
  rw [view, found, Option.map_some] at same
  obtain ⟨before, foundBefore, equal⟩ := Option.map_eq_some_iff.mp same.symm
  have hears := heard before foundBefore
  simp only [receipt, Prod.mk.injEq] at equal
  obtain ⟨descriptor, inQueue, outQueue, returned⟩ := equal
  refine ⟨⟨?_, ?_⟩, ?_⟩
  · rw [← inQueue]
    exact hears.sound.inQueue
  · rw [← outQueue]
    exact hears.sound.outQueue
  · intro fd remembers
    rw [← descriptor] at remembers
    rw [← returned, ← inQueue, sockets fd (assigned_some foundBefore remembers)]
    exact hears.bytes fd remembers

theorem heard_same (heard : Heard world con)
    (same : view receipt after con = view receipt world con)
    (sockets : after.sockets = world.sockets) : Heard after con :=
  heard_view heard same fun _ _ => by simp only [consumed, sockets]

end Hearing

section Sockets

@[simp] theorem close_sockets (fd : Option Descriptor) :
    (world.close fd).sockets = world.sockets := by
  cases fd <;> rfl

@[simp] theorem setState_sockets (state : AsockConState) :
    (world.setState con state).sockets = world.sockets := by
  unfold World.setState
  split <;> rfl

@[simp] theorem destroy_sockets : (world.destroyAsock con).sockets = world.sockets := by
  unfold World.destroyAsock
  split
  · rfl
  · split
    · exact close_sockets _
    · rfl

@[simp] theorem destroyAll_sockets (cons : List ConRef) :
    (world.destroyAll cons).sockets = world.sockets := by
  induction cons with
  | nil => rfl
  | cons con rest ih => rw [destroyAll_cons, destroy_sockets, ih]

@[simp] theorem incr_sockets : (world.counterIncr con).sockets = world.sockets := by
  unfold World.counterIncr
  split <;> rfl

@[simp] theorem forgetNew_sockets (sockd : Nat) :
    (world.forgetNew sockd).sockets = world.sockets := by
  unfold World.forgetNew
  split <;> rfl

@[simp] theorem forgetNew_table (sockd : Nat) : (world.forgetNew sockd).table = world.table := by
  unfold World.forgetNew
  split <;> rfl

/-- Nothing is opened. -/
def Shrinks (before after : World) : Prop :=
  ∀ number acquisition, after.table.opened number = some acquisition →
    before.table.opened number = some acquisition

theorem Shrinks.trans {first middle last : World} (front : Shrinks first middle)
    (back : Shrinks middle last) : Shrinks first last :=
  fun number acquisition isOpen => front number acquisition (back number acquisition isOpen)

theorem shrinks_table (same : after.table = world.table) : Shrinks world after := by
  intro number acquisition isOpen
  rwa [same] at isOpen

theorem close_shrinks (world : World) (fd : Option Descriptor) :
    Shrinks world (world.close fd) := by
  intro number acquisition isOpen
  cases fd with
  | none => exact isOpen
  | some fd =>
      by_cases hit : number = fd.number
      · subst hit
        simp [World.close, Table.close] at isOpen
      · simpa [World.close, Table.close, hit] using isOpen

theorem close_shut (world : World) (fd : Descriptor) :
    (world.close (some fd)).table.opened fd.number = none := by
  simp [World.close, Table.close]

theorem setState_table (world : World) (con : ConRef) (state : AsockConState) :
    (world.setState con state).table = world.table := by
  unfold World.setState
  split <;> rfl

theorem destroy_shrinks (world : World) (con : ConRef) :
    Shrinks world (world.destroyAsock con) := by
  unfold World.destroyAsock
  split
  · exact shrinks_table rfl
  · split
    · exact (shrinks_table rfl : Shrinks world (world.put con _)).trans (close_shrinks _ _)
    · exact shrinks_table rfl

theorem destroyAll_shrinks (world : World) (cons : List ConRef) :
    Shrinks world (world.destroyAll cons) := by
  induction cons with
  | nil => exact shrinks_table rfl
  | cons con rest ih =>
      rw [destroyAll_cons]
      exact ih.trans (destroy_shrinks _ con)

end Sockets

section Closing

variable {index : Nat}

theorem shutAt_receipt (world : World) (con : ConRef) :
    view receipt (world.shutAt con) = view receipt world := by
  rw [World.shutAt, view_objects (close_objects _), view_setState world con .failed fun _ => rfl]

theorem dropAt_receipt (world : World) (con : ConRef) (index : Nat) :
    view receipt (world.dropAt con index) = view receipt world := by
  simp only [World.dropAt]
  rw [view_objects (setConnections_objects _ _), view_destroy receipt_uncounted]

theorem closeAt_receipt (world : World) (con : ConRef) (index : Nat) :
    view receipt (world.closeAt con index) = view receipt world :=
  (dropAt_receipt _ con index).trans (shutAt_receipt world con)

theorem shutAt_standing (different : other ≠ con) :
    view standing (world.shutAt con) other = view standing world other := by
  rw [World.shutAt, view_objects (close_objects _), view_setState_other .failed different]

theorem closeAt_standing (different : other ≠ con) :
    view standing (world.closeAt con index) other = view standing world other := by
  simp only [World.closeAt]
  rw [view_objects (setConnections_objects _ _), view_destroy standing_uncounted,
    view_objects (close_objects _), view_setState_other .failed different]

@[simp] theorem closeAt_sockets : (world.closeAt con index).sockets = world.sockets := by
  have kept : ∀ (world : World) (list : Connections),
      (world.setConnections list).sockets = world.sockets := fun _ _ => rfl
  simp only [World.closeAt, kept, destroy_sockets, close_sockets, setState_sockets]

theorem shutAt_shrinks (world : World) (con : ConRef) : Shrinks world (world.shutAt con) :=
  (shrinks_table (setState_table world con .failed)).trans (close_shrinks _ _)

theorem closeAt_shrinks (world : World) (con : ConRef) (index : Nat) :
    Shrinks world (world.closeAt con index) :=
  ((shutAt_shrinks world con).trans (destroy_shrinks _ con)).trans (shrinks_table rfl)

theorem closeAt_shut (found : world.objects con = some object)
    (remembers : object.con.mSockDesc = some fd) :
    (world.closeAt con index).table.opened fd.number = none := by
  have shut := close_shut (world.setState con .failed) fd
  have shrinks := (destroy_shrinks ((world.setState con .failed).close (some fd)) con)
  cases isOpen : (world.closeAt con index).table.opened fd.number with
  | none => rfl
  | some acquisition =>
      simp only [World.closeAt, found, Option.bind_some, remembers] at isOpen
      rw [shrinks fd.number acquisition isOpen] at shut
      cases shut

theorem closeAt_keeps (found : world.objects con = some object)
    (remembers : object.con.mSockDesc = some fd) :
    Keeps world (world.closeAt con index) ∧ ¬ live (world.closeAt con index) (some con) := by
  obtain ⟨keeps, dead, _, failed, foundFailed, _⟩ := failed_closed found remembers
  obtain ⟨drops, _⟩ := destroy_effect foundFailed
  simp only [World.closeAt, found, Option.bind_some, remembers]
  have lists : Keeps (((world.setState con .failed).close (some fd)).destroyAsock con)
      ((((world.setState con .failed).close (some fd)).destroyAsock con).setConnections
        ((((world.setState con .failed).close (some fd)).destroyAsock con).mConnections.erase
          index)) := keeps_objects rfl
  exact ⟨keeps.trans (drops.trans lists), fun isLive => dead (drops.live _ (lists.live _ isLive))⟩

end Closing

section Neutral

/-- A step that opens and closes nothing and changes no descriptor and no state. -/
structure Neutral (before after : World) : Prop where
  keeps : Keeps before after
  standing : view standing after = view standing before
  table : after.table = before.table

theorem Neutral.trans {first middle last : World} (front : Neutral first middle)
    (back : Neutral middle last) : Neutral first last :=
  ⟨front.keeps.trans back.keeps, back.standing.trans front.standing, back.table.trans front.table⟩

theorem neutral_objects (same : after.objects = world.objects)
    (table : after.table = world.table) : Neutral world after :=
  ⟨keeps_objects same, view_objects same, table⟩

theorem neutral_put (next : Object) (found : world.objects con = some object)
    (same : standing next = standing object) (released : next.released = object.released) :
    Neutral world (world.put con next) := by
  have fields := same
  simp only [standing, Prod.mk.injEq] at fields
  refine ⟨keeps_put next found fields.1 ?_, view_put next found same, rfl⟩
  rintro ⟨alive, unfailed⟩
  exact ⟨released ▸ alive, by rw [← fields.2]; exact unfailed⟩

theorem neutral_incr (world : World) (con : ConRef) : Neutral world (world.counterIncr con) := by
  unfold World.counterIncr
  split
  · exact neutral_objects rfl rfl
  · rename_i object found
    exact neutral_put _ found rfl rfl

theorem neutral_readData {number count : Nat} {answer : Allocation}
    (reads : world.readData number count answer = some after) : Neutral world after := by
  obtain ⟨acquisition, _, _, ⟨_, rfl⟩ | ⟨con, object, queue, _, found, _, rfl⟩⟩ :=
    readData_cases world reads
  · exact neutral_objects rfl rfl
  · have taken : Neutral world (world.setSocket acquisition
        ⟨(world.sockets acquisition).buffered.drop count, (world.sockets acquisition).consumed ++
          (world.sockets acquisition).buffered.take count⟩) := neutral_objects rfl rfl
    exact taken.trans (neutral_put _ found rfl rfl)

theorem neutral_userRead {dst : List Byte} (reads : world.userRead con dst = some after) :
    Neutral world after := by
  obtain ⟨object, count, block, queue, _, found, _, rfl⟩ := userRead_cases world reads
  exact neutral_put _ found rfl rfl

theorem neutral_arrive {number : Nat} {bytes : List Byte}
    (arrives : world.arrive number bytes = some after) : Neutral world after := by
  obtain ⟨acquisition, _, rfl⟩ := Option.map_eq_some_iff.mp arrives
  exact neutral_objects rfl rfl

end Neutral

section Reading

/-- The queue a chunk goes to has room for it in the address space. -/
def Addressable (world : World) (number count : Nat) : Prop :=
  ∀ con ∈ world.conBySockDesc number, ∀ object ∈ world.objects con,
    (bytesOf object.con.mInQueue).length + count ≤ 2 ^ 63

instance (world : World) (number count : Nat) : Decidable (Addressable world number count) :=
  inferInstanceAs (Decidable (∀ con ∈ world.conBySockDesc number,
    ∀ object ∈ world.objects con, (bytesOf object.con.mInQueue).length + count ≤ 2 ^ 63))

/-- The enqueue of a read loop gets its memory, in a queue an address space can hold. -/
def Stores (world : World) (number : Option Nat) (chunk : Option (Nat × Allocation)) : Prop :=
  ∀ read ∈ chunk, read.2.isSome = true ∧ ∀ fdNumber ∈ number, Addressable world fdNumber read.1

instance (world : World) (number : Option Nat) (chunk : Option (Nat × Allocation)) :
    Decidable (Stores world number chunk) :=
  inferInstanceAs (Decidable (∀ read ∈ chunk, read.2.isSome = true ∧
    ∀ fdNumber ∈ number, Addressable world fdNumber read.1))

/-- The chunk a read takes goes to the queue of the connection found, whole. -/
theorem readData_heard {number count acquisition : Nat} {answer : Allocation}
    (reads : world.readData number count answer = some after) (granted : answer.isSome)
    (addressable : Addressable world number count)
    (isOpen : world.table.opened number = some acquisition)
    (routed : ∀ fd, assigned world none (some con) = some fd →
      (fd.acquisition = acquisition ↔ world.conBySockDesc number = some con))
    (heard : Heard world con) : Heard after con := by
  obtain ⟨same, here, bounded, cases⟩ := readData_cases world reads
  rw [isOpen, Option.some.injEq] at here
  subst here
  have untouched : ∀ fd, assigned world none (some con) = some fd →
      world.conBySockDesc number ≠ some con → ∀ socket,
      consumed (world.setSocket acquisition socket) fd.acquisition =
        consumed world fd.acquisition := by
    intro fd remembers unrouted socket
    have apart : fd.acquisition ≠ acquisition := fun hit => unrouted ((routed fd remembers).mp hit)
    simp [consumed, World.setSocket, apart]
  rcases cases with ⟨unknown, rfl⟩ | ⟨target, object, queue, known, found, receives, rfl⟩
  · refine heard_view heard rfl fun fd remembers => ?_
    exact untouched fd remembers (by rw [unknown]; intro impossible; cases impossible) _
  · by_cases hit : con = target
    · subst hit
      have hears := heard object found
      have chunk : ((world.sockets acquisition).buffered.take count).length = count := by
        rw [List.length_take]
        omega
      obtain ⟨enlarged, receives', holds⟩ := receive_spec hears.sound
        (by rw [chunk]; exact addressable con known object found) granted
      rw [receives'] at receives
      simp only [Except.ok.injEq, Asock.mk.injEq, true_and, and_true] at receives
      subst receives
      intro next foundNext
      rw [put_here, Option.some.injEq] at foundNext
      subst foundNext
      refine ⟨⟨held_bytes holds, hears.sound.outQueue⟩, ?_⟩
      intro fd remembers
      have own := (routed fd (assigned_some found remembers)).mpr known
      simp only [bytes_held holds, ← List.append_assoc, hears.bytes fd remembers]
      simp [consumed, World.setSocket, World.put, own]
    · refine heard_view heard (view_other _ hit) fun fd remembers => ?_
      exact untouched fd remembers (by rw [known]; intro same; exact hit (Option.some.inj same).symm) _

theorem userRead_heard {reader : ConRef} {dst : List Byte}
    (reads : world.userRead reader dst = some after) (heard : Heard world con) :
    Heard after con := by
  obtain ⟨object, count, block, queue, _, found, received, rfl⟩ := userRead_cases world reads
  by_cases hit : con = reader
  · subst hit
    have hears := heard object found
    obtain ⟨rest, received', holds⟩ := read_spec dst hears.sound
    rw [received'] at received
    simp only [Except.ok.injEq, Prod.mk.injEq, Asock.mk.injEq, true_and, and_true] at received
    obtain ⟨rfl, rfl, rfl⟩ := received
    intro next foundNext
    rw [put_here, Option.some.injEq] at foundNext
    subst foundNext
    refine ⟨⟨held_bytes holds, hears.sound.outQueue⟩, ?_⟩
    intro fd remembers
    have length : ((bytesOf object.con.mInQueue).take dst.length).length =
        min dst.length (bytesOf object.con.mInQueue).length := List.length_take
    simp only [bytes_held holds, ← length, List.take_left, List.append_assoc,
      List.take_append_drop]
    exact hears.bytes fd remembers
  · exact heard_same heard (view_other _ hit) rfl

theorem arrive_heard {number : Nat} {bytes : List Byte}
    (arrives : world.arrive number bytes = some after) (heard : Heard world con) :
    Heard after con := by
  obtain ⟨acquisition, _, rfl⟩ := Option.map_eq_some_iff.mp arrives
  refine heard_view heard rfl fun fd _ => ?_
  by_cases hit : fd.acquisition = acquisition
  · simp [consumed, World.setSocket, hit]
  · simp [consumed, World.setSocket, hit]

end Reading

section Draining

/-- The connection's own socket is closed for good, with nothing left unread in it. -/
def Drained (world : World) (con : ConRef) : Prop :=
  ∃ fd, assigned world none (some con) = some fd ∧
    (∀ number, world.table.opened number ≠ some fd.acquisition) ∧
    (world.sockets fd.acquisition).buffered = []

theorem drained_shrinks (drained : Drained world con) (keeps : Keeps world after)
    (shrinks : Shrinks world after) (sockets : after.sockets = world.sockets) :
    Drained after con := by
  obtain ⟨fd, remembers, gone, empty⟩ := drained
  refine ⟨fd, by rw [keeps.assigned]; exact remembers, ?_, by rw [sockets]; exact empty⟩
  intro number isOpen
  exact gone number (shrinks number fd.acquisition isOpen)

/-- What happens to an open socket is nothing to a closed one. -/
theorem drained_setSocket {number acquisition : Nat} {socket : Socket}
    (drained : Drained world con) (isOpen : world.table.opened number = some acquisition) :
    Drained (world.setSocket acquisition socket) con := by
  obtain ⟨fd, remembers, gone, empty⟩ := drained
  have apart : fd.acquisition ≠ acquisition := by
    rintro rfl
    exact gone number isOpen
  exact ⟨fd, remembers, gone, by simpa [World.setSocket, apart] using empty⟩

theorem drained_put {target : ConRef} (next : Object) (found : world.objects target = some object)
    (same : standing next = standing object) (released : next.released = object.released)
    (drained : Drained world con) : Drained (world.put target next) con :=
  drained_shrinks drained (neutral_put next found same released).keeps (shrinks_table rfl) rfl

theorem drained_readData {number count : Nat} {answer : Allocation}
    (reads : world.readData number count answer = some after) (drained : Drained world con) :
    Drained after con := by
  obtain ⟨acquisition, isOpen, _, ⟨_, rfl⟩ | ⟨target, object, queue, _, found, _, rfl⟩⟩ :=
    readData_cases world reads
  · exact drained_setSocket drained isOpen
  · exact drained_put _ found rfl rfl (drained_setSocket drained isOpen)

theorem drained_arrive {number : Nat} {bytes : List Byte}
    (arrives : world.arrive number bytes = some after) (drained : Drained world con) :
    Drained after con := by
  obtain ⟨acquisition, isOpen, rfl⟩ := Option.map_eq_some_iff.mp arrives
  exact drained_setSocket drained isOpen

/-- The user has or can still read every byte the socket ever received. -/
def Complete (world : World) (con : ConRef) : Prop :=
  ∃ object fd, world.objects con = some object ∧ object.con.mSockDesc = some fd ∧
    object.returned ++ bytesOf object.con.mInQueue =
      (world.sockets fd.acquisition).consumed ++ (world.sockets fd.acquisition).buffered

theorem drained_complete (drained : Drained world con) (heard : Heard world con) :
    Complete world con := by
  obtain ⟨fd, remembers, _, empty⟩ := drained
  obtain ⟨object, found, descriptor⟩ := Option.bind_eq_some_iff.mp remembers
  refine ⟨object, fd, found, descriptor, ?_⟩
  rw [empty, List.append_nil]
  exact (heard object found).bytes fd descriptor

end Draining

section Acquiring

variable {acquired : World} {number : Nat} {listening : Option Descriptor} {made : Asock}

theorem acquire_effect (acquires : world.acquire number = some (fd, acquired)) :
    acquired.objects = world.objects ∧ world.table.acquire number = some (fd, acquired.table) ∧
      acquired.sockets = Function.update world.sockets fd.acquisition ⟨[], []⟩ := by
  obtain ⟨result, table, same⟩ := Option.map_eq_some_iff.mp acquires
  cases same
  exact ⟨rfl, table, rfl⟩

theorem acquire_heard (acquires : world.acquire number = some (fd, acquired))
    (owned : OwnedWorld world listening) (heard : Heard world con) : Heard acquired con := by
  obtain ⟨objects, table, sockets⟩ := acquire_effect acquires
  obtain ⟨_, rfl, _⟩ := acquire_shape table
  refine heard_view heard (congrFun (view_objects objects) con) fun held remembers => ?_
  have known := owned.known (some con) held remembers
  simp [consumed, sockets, Nat.ne_of_lt known]

theorem acquire_drained (acquires : world.acquire number = some (fd, acquired))
    (owned : OwnedWorld world listening) (drained : Drained world con) : Drained acquired con := by
  obtain ⟨objects, table, sockets⟩ := acquire_effect acquires
  obtain ⟨_, rfl, opened⟩ := acquire_shape table
  obtain ⟨held, remembers, gone, empty⟩ := drained
  have known := owned.known (some con) held remembers
  have keeps : Keeps world acquired := keeps_objects objects
  refine ⟨held, by rw [keeps.assigned]; exact remembers, ?_, ?_⟩
  · intro place isOpen
    simp only [opened] at isOpen
    by_cases hit : place = number
    · rw [hit, Function.update_self, Option.some.injEq] at isOpen
      exact Nat.ne_of_gt known isOpen
    · rw [Function.update_of_ne hit] at isOpen
      exact gone place isOpen
  · simpa [sockets, Nat.ne_of_lt known] using empty

/-- A descriptor that no object gets is closed at once. -/
theorem acquire_close_shrinks (acquires : world.acquire number = some (fd, acquired)) :
    Shrinks world (acquired.close (some fd)) := by
  obtain ⟨_, table, _⟩ := acquire_effect acquires
  obtain ⟨_, rfl, same⟩ := acquire_shape table
  intro place acquisition isOpen
  by_cases hit : place = number
  · subst hit
    simp [World.close, Table.close] at isOpen
  · simpa [World.close, Table.close, same, hit] using isOpen

theorem owned_acquire_close (acquires : world.acquire number = some (fd, acquired))
    (owned : OwnedWorld world listening) : OwnedWorld (acquired.close (some fd)) listening := by
  obtain ⟨objects, table, _⟩ := acquire_effect acquires
  have keeps : Keeps world (acquired.close (some fd)) :=
    keeps_objects ((close_objects (some fd)).trans objects)
  have closed := Owned.acquire_close table owned
  unfold OwnedWorld
  rw [keeps.assigned]
  exact closed.fewer_live keeps.live

theorem settled_acquire_close (acquires : world.acquire number = some (fd, acquired))
    (settled : SettledWorld world listening) (owned : OwnedWorld world listening) :
    SettledWorld (acquired.close (some fd)) listening := by
  obtain ⟨objects, table, _⟩ := acquire_effect acquires
  have keeps : Keeps world (acquired.close (some fd)) :=
    keeps_objects ((close_objects (some fd)).trans objects)
  have closed := Settled.acquire_close table settled owned
  unfold SettledWorld
  rw [keeps.assigned]
  exact closed.fewer_live keeps.live

theorem added_objects (world : World) (made : Asock) :
    (world.add made).objects = (world.put world.created ⟨made, false, []⟩).objects := rfl

theorem added_view (made : Asock) (different : con ≠ world.created) :
    view part (world.add made) con = view part world con := by
  simp only [view, added_objects]
  simp [World.put, different]

theorem added_here (world : World) (made : Asock) :
    (world.add made).objects world.created = some ⟨made, false, []⟩ := put_here ..

theorem added_serving (made : Asock) (remembers : made.mSockDesc = some fd)
    (unfailed : made.mState ≠ .failed) : Serving (world.add made) world.created fd :=
  object_serving (added_here world made) remembers unfailed

/-- The new object is the holder of the new descriptor. -/
theorem added_owners (world : World) (remembers : made.mSockDesc = some fd) :
    assigned (world.add made) listening =
      Function.update (assigned world listening) (some world.created) (some fd) ∧
    ∀ holder, live (world.add made) holder → holder = some world.created ∨ live world holder := by
  constructor
  · funext holder
    cases holder with
    | none => rfl
    | some other =>
        by_cases hit : other = world.created
        · subst hit
          rw [Function.update_self]
          exact assigned_some (added_here world made) remembers
        · have away : some other ≠ some world.created := fun same => hit (Option.some.inj same)
          rw [Function.update_of_ne away]
          simp [assigned, added_objects, World.put, hit]
  · intro holder isLive
    cases holder with
    | none => exact .inr trivial
    | some other =>
        by_cases hit : other = world.created
        · exact .inl (congrArg some hit)
        · obtain ⟨object, found, lives⟩ := isLive
          refine .inr ⟨object, ?_, lives⟩
          simpa [added_objects, World.put, hit] using found

theorem owned_add (acquires : world.acquire number = some (fd, acquired))
    (remembers : made.mSockDesc = some fd) (owned : OwnedWorld world listening) :
    OwnedWorld (acquired.add made) listening := by
  obtain ⟨objects, table, _⟩ := acquire_effect acquires
  obtain ⟨holds, alive⟩ := added_owners acquired remembers
  have keeps : Keeps world acquired := keeps_objects objects
  have given := Owned.acquire table owned (some acquired.created)
  unfold OwnedWorld
  rw [holds, keeps.assigned]
  apply given.fewer_live
  intro holder isLive
  exact (alive holder isLive).imp id (keeps.live holder)

theorem settled_add (acquires : world.acquire number = some (fd, acquired))
    (remembers : made.mSockDesc = some fd) (settled : SettledWorld world listening) :
    SettledWorld (acquired.add made) listening := by
  obtain ⟨objects, table, _⟩ := acquire_effect acquires
  obtain ⟨holds, alive⟩ := added_owners acquired remembers
  have keeps : Keeps world acquired := keeps_objects objects
  have given := Settled.acquire table settled (some acquired.created)
  unfold SettledWorld
  rw [holds, keeps.assigned]
  apply given.fewer_live
  intro holder isLive
  exact (alive holder isLive).imp id (keeps.live holder)

theorem add_drained (drained : Drained world con) (different : con ≠ world.created) :
    Drained (world.add made) con := by
  obtain ⟨fd, remembers, gone, empty⟩ := drained
  refine ⟨fd, ?_, gone, empty⟩
  rw [← remembers]
  simp [assigned, added_objects, World.put, different]

theorem heard_add (acquires : world.acquire number = some (fd, acquired))
    (remembers : made.mSockDesc = some fd) (sound : made.Sound)
    (empty : bytesOf made.mInQueue = []) (owned : OwnedWorld world listening)
    (heard : ∀ con, Heard world con) (con : ConRef) : Heard (acquired.add made) con := by
  by_cases hit : con = acquired.created
  · subst hit
    intro object found
    rw [added_here, Option.some.injEq] at found
    subst found
    refine ⟨sound, ?_⟩
    intro there remembers'
    rw [remembers, Option.some.injEq] at remembers'
    subst remembers'
    obtain ⟨_, _, sockets⟩ := acquire_effect acquires
    simp [empty, consumed, World.add, World.put, sockets]
  · exact heard_same (acquire_heard acquires owned (heard con)) (added_view made hit) rfl

end Acquiring

end Libasock.SocketContents
