import Libasock.WorkerWorld
import Mathlib.Data.List.Perm.Basic

/-!
How the shared functions of a worker move `m_ref_counter` and the entries of the
two lists. A connection is freed by the call that takes its counter to 0;
`FreedAtZero` states that nothing else frees one and that no counter goes below.
-/

namespace Libasock.ReferenceCounts
open ByteBlocks NumberReuse ReturnCodes ConnectionObjects WorkerWorld

def counter (world : World) (con : ConRef) : Int :=
  match world.objects con with
  | none => 0
  | some object => object.con.mRefCounter

structure Counted (object : Object) : Prop where
  freed : object.released = true ↔ object.con.mRefCounter = 0
  positive : 0 ≤ object.con.mRefCounter

def FreedAtZero (world : World) : Prop :=
  ∀ con object, world.objects con = some object → Counted object

variable {world : World} {con other : ConRef}

theorem counter_some {object : Object} (found : world.objects con = some object) :
    counter world con = object.con.mRefCounter := by
  rw [counter, found]

theorem counted_object {world : World} {con : ConRef} (counted : counter world con ≠ 0) :
    ∃ object, world.objects con = some object := by
  cases found : world.objects con with
  | none => exact absurd (by rw [counter, found]) counted
  | some object => exact ⟨object, rfl⟩

theorem count_pushed (items : List ConRef) (con other : ConRef) :
    (items ++ [con]).count other = items.count other + if other = con then 1 else 0 := by
  simp only [List.count_append, List.count_singleton, beq_iff_eq, @eq_comm _ other]

section Views

theorem counter_put (object : Object) : counter (world.put con object) other =
    if other = con then object.con.mRefCounter else counter world other := by
  by_cases same : other = con
  · subst same
    simp [counter, World.put]
  · simp [counter, World.put, same]

theorem counter_congr {after : World} (world : World) (con : ConRef)
    (same : after.objects = world.objects) : counter after con = counter world con := by
  rw [counter, counter, same]

@[simp] theorem counter_setConnections (list : Connections) :
    counter (world.setConnections list) con = counter world con := rfl

@[simp] theorem counter_setNew (list : Connections) :
    counter (world.setNew list) con = counter world con := rfl

@[simp] theorem counter_setHeld (held : List ConRef) :
    counter (world.setHeld held) con = counter world con := rfl

@[simp] theorem close_objects (fd : Option Descriptor) :
    (world.close fd).objects = world.objects := by
  cases fd <;> rfl

@[simp] theorem counter_close (fd : Option Descriptor) :
    counter (world.close fd) con = counter world con :=
  counter_congr world con (close_objects fd)

@[simp] theorem counter_setState (state : AsockConState) :
    counter (world.setState con state) other = counter world other := by
  unfold World.setState
  split
  · rfl
  · rename_i object found
    refine (counter_congr (world.put con _) other rfl).trans ?_
    rw [counter_put]
    split
    · rename_i same
      rw [same, counter_some found]
    · rfl

theorem counter_destroy {object : Object} (found : world.objects con = some object) :
    counter (world.destroyAsock con) other =
      counter world other - if other = con then 1 else 0 := by
  unfold World.destroyAsock
  rw [found]
  have dropped : ∀ after : Object, after.con.mRefCounter = object.con.mRefCounter - 1 →
      counter (world.put con after) other =
        counter world other - if other = con then 1 else 0 := by
    intro after less
    rw [counter_put]
    split
    · rename_i same
      rw [same, counter_some found, less]
    · exact (Int.sub_zero _).symm
  simp only
  split
  · rw [counter_close]
    exact dropped _ rfl
  · exact dropped _ rfl

theorem counter_incr {object : Object} (found : world.objects con = some object) :
    counter (world.counterIncr con) other =
      counter world other + if other = con then 1 else 0 := by
  unfold World.counterIncr
  rw [found]
  simp only [counter_put]
  split
  · rename_i same
    rw [same, counter_some found]
  · exact (Int.add_zero _).symm

end Views

section Existence

theorem put_isSome (object : Object) : ((world.put con object).objects other).isSome =
    (decide (other = con) || (world.objects other).isSome) := by
  by_cases same : other = con
  · subst same
    simp [World.put]
  · simp [World.put, same]

@[simp] theorem setState_isSome (state : AsockConState) :
    ((world.setState con state).objects other).isSome = (world.objects other).isSome := by
  unfold World.setState
  split
  · rfl
  · rename_i object found
    refine (put_isSome _).trans ?_
    by_cases same : other = con
    · simp [same, found]
    · simp [same]

@[simp] theorem destroy_isSome :
    ((world.destroyAsock con).objects other).isSome = (world.objects other).isSome := by
  unfold World.destroyAsock
  split
  · rfl
  · rename_i object found
    have kept : ∀ after : Object, ((world.put con after).objects other).isSome =
        (world.objects other).isSome := by
      intro after
      rw [put_isSome]
      by_cases same : other = con
      · simp [same, found]
      · simp [same]
    split
    · rw [close_objects, kept]
    · rw [kept]

@[simp] theorem incr_isSome :
    ((world.counterIncr con).objects other).isSome = (world.objects other).isSome := by
  unfold World.counterIncr
  split
  · rfl
  · rename_i object found
    refine (put_isSome _).trans ?_
    by_cases same : other = con
    · simp [same, found]
    · simp [same]

end Existence

section Lists

/-- The parts of the world only list operations and the user change. -/
structure SameLists (before after : World) : Prop where
  connections : after.mConnections = before.mConnections
  new : after.mNewConnections = before.mNewConnections
  held : after.held = before.held
  created : after.created = before.created

theorem SameLists.trans {first middle last : World} (front : SameLists first middle)
    (back : SameLists middle last) : SameLists first last :=
  ⟨back.connections.trans front.connections, back.new.trans front.new,
    back.held.trans front.held, back.created.trans front.created⟩

theorem close_lists (world : World) (fd : Option Descriptor) :
    SameLists world (world.close fd) := by
  cases fd <;> exact ⟨rfl, rfl, rfl, rfl⟩

theorem setState_lists (world : World) (con : ConRef) (state : AsockConState) :
    SameLists world (world.setState con state) := by
  unfold World.setState
  split <;> exact ⟨rfl, rfl, rfl, rfl⟩

theorem put_lists (world : World) (con : ConRef) (object : Object) :
    SameLists world (world.put con object) := ⟨rfl, rfl, rfl, rfl⟩

theorem destroy_lists (world : World) (con : ConRef) :
    SameLists world (world.destroyAsock con) := by
  unfold World.destroyAsock
  split
  · exact ⟨rfl, rfl, rfl, rfl⟩
  · split
    · exact (put_lists world con _).trans (close_lists _ _)
    · exact put_lists world con _

theorem destroy_unlists (world : World) (con : ConRef) (list : Connections) :
    (world.setConnections list).destroyAsock con = (world.destroyAsock con).setConnections list := by
  simp only [World.destroyAsock, setConnections_objects]
  cases found : world.objects con with
  | none => rfl
  | some object =>
      simp only
      split
      · cases object.con.mSockDesc <;> rfl
      · rfl

/-- It makes no difference that the entry goes after its reference. -/
theorem dropAt_unlisted (world : World) (con : ConRef) (index : Nat) :
    world.dropAt con index = (world.unlisted (some (con, index))).destroyAsock con := by
  simp only [World.dropAt, World.unlisted, destroy_unlists, (destroy_lists world con).connections]

theorem incr_lists (world : World) (con : ConRef) : SameLists world (world.counterIncr con) := by
  unfold World.counterIncr
  split <;> exact ⟨rfl, rfl, rfl, rfl⟩

theorem count_eraseIdx {items : List ConRef} {index : Nat} (other : ConRef)
    (here : items[index]? = some con) :
    (items.eraseIdx index).count other + (if other = con then 1 else 0) = items.count other := by
  obtain ⟨inside, same⟩ := List.getElem?_eq_some_iff.mp here
  have perm := List.getElem_cons_eraseIdx_perm inside
  rw [same] at perm
  rw [← perm.count_eq, List.count_cons]
  by_cases hit : other = con
  · simp [hit]
  · simp [hit, Ne.symm hit]

theorem forgetNew_lists (world : World) (sockd : Nat) (con : ConRef) :
    (world.forgetNew sockd).held = world.held ∧
      (world.forgetNew sockd).created = world.created ∧
      (world.forgetNew sockd).mNewConnections.items.count con ≤
        world.mNewConnections.items.count con := by
  unfold World.forgetNew
  split
  · exact ⟨rfl, rfl, Nat.le_refl _⟩
  · rename_i index found
    obtain ⟨inside, _⟩ := List.findIdx?_eq_some_iff_getElem.mp found
    have erased := count_eraseIdx con (List.getElem?_eq_getElem inside)
    refine ⟨rfl, rfl, ?_⟩
    simp only [setNew_items, Connections.erase]
    omega

-- No waiting connection has the number, so none is forgotten.
theorem forgetNew_unused {sockd : Nat}
    (unused : ∀ waiting ∈ world.mNewConnections.items, world.hasSockDesc sockd waiting = false) :
    world.forgetNew sockd = world := by
  unfold World.forgetNew
  rw [List.findIdx?_eq_none_iff.mpr unused]

end Lists

section Freeing

theorem freed_put {object : Object} (freed : FreedAtZero world) (counted : Counted object) :
    FreedAtZero (world.put con object) := by
  intro other found same
  by_cases hit : other = con
  · subst hit
    have here : object = found := by simpa [World.put] using same
    rw [← here]
    exact counted
  · exact freed other found (by simpa [World.put, hit] using same)

theorem freed_congr {after : World} (freed : FreedAtZero world)
    (same : after.objects = world.objects) : FreedAtZero after := by
  intro other object found
  rw [same] at found
  exact freed other object found

theorem freed_setState (freed : FreedAtZero world) (con : ConRef) (state : AsockConState) :
    FreedAtZero (world.setState con state) := by
  unfold World.setState
  split
  · exact freed
  · rename_i object found
    have counted := freed con object found
    have kept : Counted { object with con := { object.con with mState := state } } :=
      ⟨counted.freed, counted.positive⟩
    exact freed_congr (freed_put freed kept) rfl

/-- Dropping a reference that is there frees at 0 and not before. -/
theorem freed_destroy (freed : FreedAtZero world) (positive : 0 < counter world con) :
    FreedAtZero (world.destroyAsock con) := by
  obtain ⟨object, found⟩ := counted_object (Int.ne_of_gt positive)
  have counted := freed con object found
  rw [counter_some found] at positive
  have alive : object.released ≠ true := by
    intro released
    have zero := counted.freed.mp released
    omega
  unfold World.destroyAsock
  rw [found]
  simp only
  split
  · rename_i last
    have gone : Counted { object.dropped with released := true } :=
      ⟨⟨fun _ => last, fun _ => rfl⟩, Int.le_of_eq last.symm⟩
    exact freed_congr (freed_put freed gone) (close_objects _)
  · rename_i more
    refine freed_put freed ⟨⟨fun released => absurd released alive, fun zero => absurd zero more⟩, ?_⟩
    simp only [Object.dropped]
    omega

theorem freed_incr (freed : FreedAtZero world) (positive : 0 < counter world con) :
    FreedAtZero (world.counterIncr con) := by
  obtain ⟨object, found⟩ := counted_object (Int.ne_of_gt positive)
  have counted := freed con object found
  rw [counter_some found] at positive
  unfold World.counterIncr
  rw [found]
  refine freed_put freed ⟨⟨?_, ?_⟩, ?_⟩
  · intro released
    have zero := counted.freed.mp released
    omega
  · intro zero
    simp only at zero
    omega
  · simp only
    omega

theorem alive_counted (freed : FreedAtZero world) (positive : 0 < counter world con) :
    ∃ object, world.objects con = some object ∧ object.released = false ∧
      0 < object.con.mRefCounter := by
  obtain ⟨object, found⟩ := counted_object (Int.ne_of_gt positive)
  rw [counter_some found] at positive
  refine ⟨object, found, ?_, positive⟩
  cases released : object.released with
  | false => rfl
  | true =>
      have zero := (freed con object found).freed.mp released
      omega

end Freeing

section Unchanged

/-- A step that moves no reference. -/
structure SameReferences (before after : World) : Prop where
  lists : SameLists before after
  counters : ∀ con, counter after con = counter before con
  known : ∀ con, (after.objects con).isSome = (before.objects con).isSome
  freed : FreedAtZero before → FreedAtZero after

theorem SameReferences.trans {first middle last : World} (front : SameReferences first middle)
    (back : SameReferences middle last) : SameReferences first last :=
  ⟨front.lists.trans back.lists, fun con => (back.counters con).trans (front.counters con),
    fun con => (back.known con).trans (front.known con), fun freed => back.freed (front.freed freed)⟩

theorem same_objects {after : World} (lists : SameLists world after)
    (same : after.objects = world.objects) : SameReferences world after :=
  ⟨lists, fun con => counter_congr world con same, fun con => by rw [same],
    fun freed => freed_congr freed same⟩

theorem same_put {object after : Object} (found : world.objects con = some object)
    (count : after.con.mRefCounter = object.con.mRefCounter)
    (released : after.released = object.released) :
    SameReferences world (world.put con after) := by
  refine ⟨put_lists world con after, ?_, ?_, ?_⟩
  · intro other
    rw [counter_put]
    split
    · rename_i same
      rw [same, counter_some found, count]
    · rfl
  · intro other
    rw [put_isSome]
    by_cases same : other = con
    · simp [same, found]
    · simp [same]
  · intro freed
    have counted := freed con object found
    exact freed_put freed ⟨by rw [released, count]; exact counted.freed, by
      rw [count]; exact counted.positive⟩

/-- Only the objects and the lists count. -/
theorem same_through {middle after : World} (same : SameReferences world middle)
    (lists : SameLists world after) (objects : after.objects = middle.objects) :
    SameReferences world after :=
  ⟨lists, fun con => (counter_congr middle con objects).trans (same.counters con),
    fun con => by rw [objects]; exact same.known con,
    fun freed => freed_congr (same.freed freed) objects⟩

theorem setSocket_references (world : World) (acquisition : Nat) (socket : Socket) :
    SameReferences world (world.setSocket acquisition socket) :=
  same_objects ⟨rfl, rfl, rfl, rfl⟩ rfl

theorem readData_references {number count : Nat} {answer : Allocation} {after : World}
    (reads : world.readData number count answer = some after) : SameReferences world after := by
  obtain ⟨acquisition, _, _, ⟨_, same⟩ | ⟨con, object, queue, _, found, _, same⟩⟩ :=
    readData_cases world reads
  · rw [same]
    exact setSocket_references world acquisition _
  · rw [same]
    exact (setSocket_references world acquisition _).trans (same_put found rfl rfl)

theorem userRead_references {dst : List Byte} {after : World}
    (reads : world.userRead con dst = some after) : SameReferences world after := by
  obtain ⟨object, count, block, queue, _, found, _, rfl⟩ := userRead_cases world reads
  exact same_put found rfl rfl

theorem arrive_references {number : Nat} {bytes : List Byte} {after : World}
    (arrives : world.arrive number bytes = some after) : SameReferences world after := by
  obtain ⟨acquisition, _, rfl⟩ := Option.map_eq_some_iff.mp arrives
  exact setSocket_references world acquisition _

theorem close_references (world : World) (fd : Option Descriptor) :
    SameReferences world (world.close fd) :=
  same_objects (close_lists world fd) (close_objects fd)

theorem shutAt_references (world : World) (con : ConRef) :
    SameReferences world (world.shutAt con) := by
  have failed : SameReferences world (world.setState con .failed) :=
    ⟨setState_lists world con .failed, fun _ => counter_setState _, fun _ => setState_isSome _,
      fun freed => freed_setState freed con .failed⟩
  exact failed.trans (close_references _ _)

/-- The first half of a close moves no reference; it only forgets the announcement. -/
theorem shut_references (world : World) (sockd : Nat) :
    SameReferences (world.forgetNew sockd) (world.shut sockd).2 := by
  rcases shut_cases world sockd with ⟨_, same⟩ | ⟨con, index, _, _, _, same⟩
  · rw [same]
    exact ⟨⟨rfl, rfl, rfl, rfl⟩, fun _ => rfl, fun _ => rfl, id⟩
  · rw [same]
    exact shutAt_references _ con

theorem acquire_references {number : Nat} {fd : Descriptor} {after : World}
    (acquires : world.acquire number = some (fd, after)) : SameReferences world after := by
  obtain ⟨result, _, same⟩ := Option.map_eq_some_iff.mp acquires
  cases same
  exact same_objects ⟨rfl, rfl, rfl, rfl⟩ rfl

end Unchanged

section Adding

theorem counter_add (con : Asock) : counter (world.add con) other =
    if other = world.created then con.mRefCounter else counter world other :=
  (counter_congr (world.put world.created _) other rfl).trans (counter_put _)

theorem add_isSome (con : Asock) : ((world.add con).objects other).isSome =
    (decide (other = world.created) || (world.objects other).isSome) := put_isSome _

theorem freed_add {con : Asock} (freed : FreedAtZero world) (single : con.mRefCounter = 1) :
    FreedAtZero (world.add con) := by
  have counted : Counted ⟨con, false, []⟩ := by
    constructor <;> simp [single]
  exact freed_congr (freed_put freed counted) rfl

end Adding

section Closing

/-- The second half of a close drops the list's reference with its entry. -/
theorem dropAt_counts {index : Nat} {object : Object} (other : ConRef)
    (found : world.objects con = some object)
    (here : world.mConnections.items[index]? = some con) :
    counter (world.dropAt con index) other = counter world other - (if other = con then 1 else 0) ∧
    (world.dropAt con index).mConnections.items.count other + (if other = con then 1 else 0) =
      world.mConnections.items.count other ∧
    (world.dropAt con index).mNewConnections = world.mNewConnections ∧
    (world.dropAt con index).held = world.held ∧
    (world.dropAt con index).created = world.created ∧
    ((world.dropAt con index).objects other).isSome = (world.objects other).isSome := by
  have lists := destroy_lists world con
  simp only [World.dropAt]
  refine ⟨?_, ?_, lists.new, lists.held, lists.created, ?_⟩
  · rw [counter_setConnections, counter_destroy found]
  · rw [setConnections_items, lists.connections]
    exact count_eraseIdx other here
  · rw [setConnections_objects, destroy_isSome]

theorem freed_dropAt {index : Nat} (freed : FreedAtZero world) (positive : 0 < counter world con) :
    FreedAtZero (world.dropAt con index) :=
  freed_congr (freed_destroy freed positive) rfl

/-- A close drops one reference of the connection it removes and nothing else. -/
theorem closeAt_counts {index : Nat} {object : Object} (other : ConRef) (found : world.objects con = some object)
    (here : world.mConnections.items[index]? = some con) :
    (counter (world.closeAt con index) other = counter world other -
      if other = con then 1 else 0) ∧
    ((world.closeAt con index).mConnections.items.count other + (if other = con then 1 else 0) =
      world.mConnections.items.count other) ∧
    (world.closeAt con index).mNewConnections = world.mNewConnections ∧
    (world.closeAt con index).held = world.held ∧
    (world.closeAt con index).created = world.created ∧
    ((world.closeAt con index).objects other).isSome = (world.objects other).isSome := by
  have same := shutAt_references world con
  obtain ⟨failed, known⟩ : ∃ failed, (world.shutAt con).objects con = some failed := by
    apply Option.isSome_iff_exists.mp
    rw [same.known, found]
    rfl
  obtain ⟨level, fewer, new, held, created, there⟩ :=
    dropAt_counts other known (by rw [same.lists.connections]; exact here)
  rw [same.counters] at level
  rw [same.lists.connections] at fewer
  exact ⟨level, fewer, new.trans same.lists.new, held.trans same.lists.held,
    created.trans same.lists.created, there.trans (same.known other)⟩

theorem freed_closeAt {index : Nat} (freed : FreedAtZero world)
    (positive : 0 < counter world con) : FreedAtZero (world.closeAt con index) := by
  have same := shutAt_references world con
  have alive : 0 < counter (world.shutAt con) con := by
    rw [same.counters]
    exact positive
  exact freed_dropAt (same.freed freed) alive

theorem close_counts (world : World) (con : ConRef) (sockd : Nat) :
    (counter (world.closeConnection sockd).2 con -
        ((world.closeConnection sockd).2.mConnections.items.count con : Int) =
      counter world con - world.mConnections.items.count con) ∧
    (world.closeConnection sockd).2.mNewConnections =
      (world.forgetNew sockd).mNewConnections ∧
    (world.closeConnection sockd).2.held = world.held ∧
    (world.closeConnection sockd).2.created = world.created ∧
    ((world.closeConnection sockd).2.objects con).isSome = (world.objects con).isSome := by
  obtain ⟨held, created, _⟩ := forgetNew_lists world sockd con
  rcases close_cases world sockd with ⟨_, same⟩ | ⟨gone, index, _, here, has, same⟩
  · rw [same]
    refine ⟨?_, rfl, held, created, by rw [forgetNew_objects]⟩
    rw [forgetNew_connections, counter_congr _ con (forgetNew_objects world sockd)]
  · obtain ⟨object, _, found, _⟩ := has_object world has
    have counts := closeAt_counts con
      (by rw [forgetNew_objects]; exact found : (world.forgetNew sockd).objects gone = some object)
      (by rw [forgetNew_connections]; exact here)
    rw [same]
    refine ⟨?_, counts.2.2.1, counts.2.2.2.1.trans held, counts.2.2.2.2.1.trans created, ?_⟩
    · have erased := counts.2.1
      rw [forgetNew_connections] at erased
      rw [counts.1, counter_congr _ con (forgetNew_objects world sockd)]
      by_cases hit : con = gone
      · simp only [hit, if_true] at erased ⊢
        omega
      · simp only [hit, if_false] at erased ⊢
        omega
    · rw [counts.2.2.2.2.2, forgetNew_objects]

theorem freed_close {sockd : Nat} (freed : FreedAtZero world)
    (positive : ∀ con ∈ world.mConnections.items, 0 < counter world con) :
    FreedAtZero (world.closeConnection sockd).2 := by
  have same := forgetNew_objects world sockd
  rcases close_cases world sockd with ⟨_, closed⟩ | ⟨con, index, _, here, _, closed⟩
  · rw [closed]
    exact freed_congr freed same
  · rw [closed]
    apply freed_closeAt (freed_congr freed same)
    rw [counter_congr _ con same]
    exact positive con (List.mem_of_getElem? here)

theorem destroyAll_cons (con : ConRef) (rest : List ConRef) :
    world.destroyAll (con :: rest) = (world.destroyAll rest).destroyAsock con := by
  simp [World.destroyAll]

theorem destroyAll_append (world : World) (last first : List ConRef) :
    world.destroyAll (last ++ first) = (world.destroyAll first).destroyAll last := by
  simp [World.destroyAll]

theorem destroyAll_lists (world : World) (cons : List ConRef) :
    SameLists world (world.destroyAll cons) := by
  induction cons with
  | nil => exact ⟨rfl, rfl, rfl, rfl⟩
  | cons con rest ih =>
      rw [destroyAll_cons]
      exact ih.trans (destroy_lists _ con)

theorem destroyAll_isSome (cons : List ConRef) :
    ((world.destroyAll cons).objects other).isSome = (world.objects other).isSome := by
  induction cons with
  | nil => rfl
  | cons con rest ih => rw [destroyAll_cons, destroy_isSome, ih]

theorem destroyAll_counter (cons : List ConRef)
    (known : ∀ con ∈ cons, (world.objects con).isSome) :
    counter (world.destroyAll cons) other = counter world other - cons.count other := by
  induction cons with
  | nil => simp [World.destroyAll]
  | cons con rest ih =>
      have here : ∃ object, (world.destroyAll rest).objects con = some object := by
        apply Option.isSome_iff_exists.mp
        rw [destroyAll_isSome]
        exact known con List.mem_cons_self
      obtain ⟨object, here⟩ := here
      rw [destroyAll_cons, counter_destroy here,
        ih fun other member => known other (List.mem_cons_of_mem con member), List.count_cons]
      by_cases same : other = con
      · simp only [same, if_true, beq_self_eq_true]
        omega
      · simp [same, Ne.symm same]

/-- When every entry has a reference of its own to give, none is dropped twice. -/
theorem freed_destroyAll (cons : List ConRef) (freed : FreedAtZero world)
    (covered : ∀ con, (cons.count con : Int) ≤ counter world con) :
    FreedAtZero (world.destroyAll cons) := by
  induction cons with
  | nil => exact freed
  | cons con rest ih =>
      have known : ∀ other ∈ rest, (world.objects other).isSome := by
        intro other member
        have listed : 0 < (con :: rest).count other :=
          List.count_pos_iff.mpr (List.mem_cons_of_mem con member)
        have enough := covered other
        have counted : counter world other ≠ 0 := by omega
        obtain ⟨object, found⟩ := counted_object counted
        rw [found]
        rfl
      rw [destroyAll_cons]
      apply freed_destroy (ih _)
      · rw [destroyAll_counter rest known]
        have enough := covered con
        rw [List.count_cons_self] at enough
        omega
      · intro other
        have enough := covered other
        have fewer : rest.count other ≤ (con :: rest).count other := List.count_le_count_cons
        omega

end Closing

end Libasock.ReferenceCounts
