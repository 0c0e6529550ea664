import Libasock.SocketContents

/-!
The connections in `m_connections` of either worker. While each of them is live
and has a descriptor of its own, the first-match lookup by number finds the
owner, and a close ends the life of that one connection.
-/

namespace Libasock.RegisteredConnections
open ByteBlocks NumberReuse ReturnCodes ConnectionObjects WorkerWorld ReferenceCounts
  DescriptorOwnership SocketContents

structure Roster (world : World) (listening : Option Descriptor) : Prop where
  owned : OwnedWorld world listening
  single : world.mConnections.items.Nodup
  serving : ∀ con ∈ world.mConnections.items, ∃ fd, Serving world con fd

/-- Every entry of `m_connections` is in use. -/
def AllLive (world : World) : Prop := ∀ con ∈ world.mConnections.items, live world (some con)

variable {world after : World} {con other : ConRef} {fd : Descriptor} {number : Nat}
  {listening : Option Descriptor}

theorem roster_unfailed (roster : Roster world listening) :
    ∀ con ∈ world.mConnections.items, Unfailed world con := by
  intro con member
  obtain ⟨_, serving⟩ := roster.serving con member
  exact serving_unfailed serving

theorem roster_frame {listeningAfter : Option Descriptor} (roster : Roster world listening)
    (owned : OwnedWorld after listeningAfter)
    (same : view standing after = view standing world)
    (items : after.mConnections.items = world.mConnections.items) :
    Roster after listeningAfter := by
  refine ⟨owned, items ▸ roster.single, ?_⟩
  intro con member
  rw [items] at member
  obtain ⟨fd, serving⟩ := roster.serving con member
  exact ⟨fd, serving_view serving (congrFun same con)⟩

theorem roster_neutral (roster : Roster world listening) (neutral : Neutral world after)
    (items : after.mConnections.items = world.mConnections.items) : Roster after listening :=
  roster_frame roster (owned_keeps roster.owned neutral.keeps neutral.table) neutral.standing items

/-- A connection that serves under a number of its own joins the list. -/
theorem roster_push (roster : Roster world listening) (serving : Serving world con fd)
    (absent : con ∉ world.mConnections.items)
    (objects : after.objects = world.objects) (table : after.table = world.table)
    (items : after.mConnections.items = world.mConnections.items ++ [con]) :
    Roster after listening := by
  refine ⟨owned_keeps roster.owned (keeps_objects objects) table, ?_, ?_⟩
  · rw [items, List.nodup_append_comm]
    exact List.nodup_cons.mpr ⟨absent, roster.single⟩
  · intro other member
    rw [items] at member
    have stays : ∀ {fd}, Serving world other fd → Serving after other fd := fun here =>
      serving_view here (congrFun (view_objects objects) other)
    rcases List.mem_append.mp member with before | last
    · obtain ⟨otherFd, here⟩ := roster.serving other before
      exact ⟨otherFd, stays here⟩
    · cases List.mem_singleton.mp last
      exact ⟨fd, stays serving⟩

/-- The last entry is taken out again. -/
theorem roster_drop (roster : Roster world listening) (front : List ConRef)
    (last : world.mConnections.items = front ++ [con])
    (objects : after.objects = world.objects) (table : after.table = world.table)
    (items : after.mConnections.items = front) : Roster after listening := by
  have sub : front.Sublist world.mConnections.items := by
    rw [last]
    exact List.sublist_append_left front [con]
  refine ⟨owned_keeps roster.owned (keeps_objects objects) table, ?_, ?_⟩
  · rw [items]
    exact roster.single.sublist sub
  · intro other member
    rw [items] at member
    obtain ⟨otherFd, here⟩ := roster.serving other (sub.subset member)
    exact ⟨otherFd, serving_view here (congrFun (view_objects objects) other)⟩

section Destroying

/-- A last reference to a `Failed` connection is given up only while nothing is open under the
number the connection remembers. -/
def StaleFree (world : World) (con : ConRef) : Prop :=
  ∀ object ∈ world.objects con, object.con.mRefCounter = 1 → object.con.mState = .failed →
    ∀ fd ∈ object.con.mSockDesc, world.table.opened fd.number = none

/-- A last reference to a `Failed` connection is given up only when it remembers no number. -/
def OwnClose (world : World) (con : ConRef) : Prop :=
  ∀ object ∈ world.objects con, object.con.mRefCounter = 1 → object.con.mState = .failed →
    object.con.mSockDesc = none

theorem ownClose_staleFree (own : OwnClose world con) : StaleFree world con := by
  intro object found last failed fd remembers
  rw [own object found last failed] at remembers
  cases remembers

theorem counted_live {object : Object} (freed : FreedAtZero world)
    (found : world.objects con = some object) (last : object.con.mRefCounter = 1)
    (unfailed : object.con.mState ≠ .failed) : live world (some con) := by
  refine ⟨object, found, ?_, unfailed⟩
  cases released : object.released with
  | false => rfl
  | true =>
      have zero := (freed con object found).freed.mp released
      omega

/-- A drop that closes nothing which is still open. -/
theorem destroyed_owned (owned : OwnedWorld world listening)
    (unused : ∀ fd, assigned world listening (some con) = some fd →
      world.table.opened fd.number = none) : OwnedWorld (world.destroyAsock con) listening := by
  cases found : world.objects con with
  | none =>
      rw [destroy_unknown found]
      exact owned
  | some object =>
      refine owned_destroy owned found fun _ => .inr fun fd remembers => ?_
      exact unused fd (assigned_some found remembers)

theorem userDestroy_views {Part : Type} {part : Object → Part} (uncounted : Uncounted part)
    (destroys : world.userDestroy con = some after) : view part after = view part world := by
  obtain ⟨_, rfl⟩ := userDestroy_cases _ destroys
  exact view_destroy uncounted _ con

theorem userDestroy_effect (destroys : world.userDestroy con = some after) :
    after.mConnections = world.mConnections ∧ after.mNewConnections = world.mNewConnections ∧
      after.sockets = world.sockets ∧ Keeps world after ∧ Shrinks world after := by
  obtain ⟨_, rfl⟩ := userDestroy_cases _ destroys
  have lists := destroy_lists (world.setHeld (world.held.erase con)) con
  have keeps : Keeps world (world.setHeld (world.held.erase con)) := keeps_objects rfl
  have shrinks : Shrinks world (world.setHeld (world.held.erase con)) := shrinks_table rfl
  exact ⟨lists.connections, lists.new, destroy_sockets, keeps.trans (destroy_keeps _ con),
    shrinks.trans (destroy_shrinks _ con)⟩

theorem userDestroy_owned (owned : OwnedWorld world listening) (freed : FreedAtZero world)
    (fresh : StaleFree world con) (destroys : world.userDestroy con = some after) :
    OwnedWorld after listening := by
  obtain ⟨_, rfl⟩ := userDestroy_cases _ destroys
  have unheld : OwnedWorld (world.setHeld (world.held.erase con)) listening :=
    owned_keeps owned (keeps_objects rfl) rfl
  cases found : (world.setHeld (world.held.erase con)).objects con with
  | none =>
      rw [destroy_unknown found]
      exact unheld
  | some object =>
      refine owned_destroy unheld found fun last => ?_
      by_cases failed : object.con.mState = .failed
      · exact .inr (fresh object found last failed)
      · exact .inl (counted_live (freed_congr freed rfl) found last failed)

theorem userDestroy_settled (settled : SettledWorld world listening)
    (owned : OwnedWorld world listening) (freed : FreedAtZero world) (own : OwnClose world con)
    (destroys : world.userDestroy con = some after) : SettledWorld after listening := by
  obtain ⟨_, rfl⟩ := userDestroy_cases _ destroys
  have unheld : SettledWorld (world.setHeld (world.held.erase con)) listening :=
    settled_keeps settled (keeps_objects rfl) rfl
  cases found : (world.setHeld (world.held.erase con)).objects con with
  | none =>
      rw [destroy_unknown found]
      exact unheld
  | some object =>
      refine settled_destroy unheld (owned_keeps owned (keeps_objects rfl) rfl) found fun last => ?_
      by_cases failed : object.con.mState = .failed
      · exact .inr (own object found last failed)
      · exact .inl (counted_live (freed_congr freed rfl) found last failed)

end Destroying

section Lookup

variable (roster : Roster world listening) (alive : AllLive world)
include roster alive

theorem listed_apart {left right : ConRef} {leftFd rightFd : Descriptor}
    (leftListed : left ∈ world.mConnections.items) (rightListed : right ∈ world.mConnections.items)
    (leftServing : Serving world left leftFd) (rightServing : Serving world right rightFd)
    (same : leftFd.number = rightFd.number) : left = right :=
  Option.some.inj (roster.owned.same_number (alive left leftListed) (alive right rightListed)
    (serving_assigned leftServing listening) (serving_assigned rightServing listening) same)

/-- What a lookup finds has the number, and the number is open for its own socket. -/
theorem lookup_found (known : world.conBySockDesc number = some con) :
    con ∈ world.mConnections.items ∧ ∃ fd, Serving world con fd ∧ fd.number = number ∧
      world.table.opened number = some fd.acquisition := by
  rcases lookup_cases world number with ⟨_, unknown⟩ | ⟨found, index, _, known', here, has⟩
  · rw [unknown] at known
    cases known
  · rw [known, Option.some.injEq] at known'
    subst known'
    have member := List.mem_of_getElem? here
    obtain ⟨fd, serving⟩ := roster.serving con member
    obtain ⟨object, remembered, found, remembers, same⟩ := has_object world has
    obtain ⟨object', found', remembers', _⟩ := serving_object serving
    rw [found, Option.some.injEq] at found'
    subst found'
    rw [remembers, Option.some.injEq] at remembers'
    subst remembers'
    refine ⟨member, remembered, serving, same, ?_⟩
    rw [← same]
    exact roster.owned.opened (some con) remembered (alive con member)
      (serving_assigned serving listening)

theorem lookup_own (listed : con ∈ world.mConnections.items) (serving : Serving world con fd) :
    world.conBySockDesc fd.number = some con := by
  rcases lookup_cases world fd.number with ⟨absent, _⟩ | ⟨found, _, _, known, here, has⟩
  · obtain ⟨object, isObject, remembers, _⟩ := serving_object serving
    have has := object_has world isObject remembers rfl
    rw [World.indexOfConBySockDesc, List.findIdx?_eq_none_iff] at absent
    rw [absent con listed] at has
    cases has
  · obtain ⟨member, otherFd, otherServing, same, _⟩ := lookup_found roster alive known
    rw [known, listed_apart roster alive member listed otherServing serving same]

/-- A read from an open number is for the one listed connection that owns the socket. -/
theorem lookup_owner {acquisition : Nat} (isOpen : world.table.opened number = some acquisition)
    (listed : con ∈ world.mConnections.items)
    (remembers : assigned world none (some con) = some fd) :
    fd.acquisition = acquisition ↔ world.conBySockDesc number = some con := by
  obtain ⟨own, serving⟩ := roster.serving con listed
  have same : own = fd := by
    rw [serving_assigned serving none] at remembers
    exact Option.some.inj remembers
  subst same
  constructor
  · intro hit
    have place := roster.owned.home (some con) own number (serving_assigned serving listening)
      (by rw [isOpen, hit])
    rw [place]
    exact lookup_own roster alive listed serving
  · intro known
    obtain ⟨_, there, servingThere, _, opened⟩ := lookup_found roster alive known
    rw [serving_unique serving servingThere]
    rw [isOpen] at opened
    exact (Option.some.inj opened).symm

/-- No unlisted connection is found, so its socket is not the one read. -/
theorem lookup_unlisted (unlisted : con ∉ world.mConnections.items) :
    world.conBySockDesc number ≠ some con :=
  fun known => unlisted (lookup_found roster alive known).1

end Lookup

section Closing

/-- The entry a close takes out: the first with the number, or none. -/
theorem close_found (world : World) (number : Nat) :
    (world.conBySockDesc number = none ∧
      (world.closeConnection number).2 = world.forgetNew number) ∨
    ∃ con index object fd, world.conBySockDesc number = some con ∧
      world.mConnections.items[index]? = some con ∧ world.objects con = some object ∧
      object.con.mSockDesc = some fd ∧ fd.number = number ∧
      (world.closeConnection number).2 = (world.forgetNew number).closeAt con index := by
  rcases close_cases world number with missed | ⟨con, index, known, here, has, same⟩
  · exact .inl missed
  · obtain ⟨object, fd, found, remembers, hit⟩ := has_object world has
    exact .inr ⟨con, index, object, fd, known, here, found, remembers, hit, same⟩

theorem forgetNew_neutral (world : World) (number : Nat) :
    Neutral world (world.forgetNew number) :=
  neutral_objects (forgetNew_objects world number) (forgetNew_table number)

/-- The world between `close()` and the drop of the reference, without the entry that goes. -/
def halfClosed (world : World) (number : Nat) : World :=
  (world.shut number).2.unlisted (world.shut number).1

theorem half_found (world : World) (number : Nat) :
    (world.conBySockDesc number = none ∧ (world.shut number).1 = none ∧
      halfClosed world number = world.forgetNew number) ∨
    ∃ con index object fd, world.conBySockDesc number = some con ∧
      world.mConnections.items[index]? = some con ∧ world.objects con = some object ∧
      object.con.mSockDesc = some fd ∧ fd.number = number ∧
      (world.shut number).1 = some (con, index) ∧
      halfClosed world number =
        ((world.forgetNew number).shutAt con).setConnections (world.mConnections.erase index) := by
  unfold halfClosed
  rcases shut_cases world number with ⟨unknown, same⟩ | ⟨con, index, known, here, has, same⟩
  · rw [same]
    exact .inl ⟨unknown, rfl, rfl⟩
  · obtain ⟨object, fd, found, remembers, hit⟩ := has_object world has
    have listed : ((world.forgetNew number).shutAt con).mConnections = world.mConnections :=
      (shutAt_references _ con).lists.connections.trans (forgetNew_connections world number)
    rw [same]
    refine .inr ⟨con, index, object, fd, known, here, found, remembers, hit, rfl, ?_⟩
    simp only [World.unlisted, listed]

theorem close_half (world : World) (number : Nat) : (world.closeConnection number).2 =
    match (world.shut number).1 with
    | none => halfClosed world number
    | some (con, _) => (halfClosed world number).destroyAsock con := by
  rw [close_halves, halfClosed]
  cases (world.shut number).1 with
  | none => rfl
  | some found => exact dropAt_unlisted _ found.1 found.2

theorem forgotten_found {object : Object} (found : world.objects con = some object) (number : Nat) :
    (world.forgetNew number).objects con = some object :=
  (congrFun (forgetNew_objects world number) con).trans found

theorem half_keeps (world : World) (number : Nat) : Keeps world (halfClosed world number) := by
  have forgets := (forgetNew_neutral world number).keeps
  obtain ⟨_, _, same⟩ | ⟨con, index, object, fd, _, _, found, remembers, _, _, same⟩ :=
    half_found world number
  · rw [same]
    exact forgets
  · have shut := (shutAt_keeps (forgotten_found found number) remembers).1
    rw [same]
    exact (forgets.trans shut).trans (keeps_objects rfl)

theorem half_shrinks (world : World) (number : Nat) : Shrinks world (halfClosed world number) := by
  have forgets : Shrinks world (world.forgetNew number) := shrinks_table (forgetNew_table number)
  obtain ⟨_, _, same⟩ | ⟨con, index, _, _, _, _, _, _, _, _, same⟩ := half_found world number
  · rw [same]
    exact forgets
  · rw [same]
    exact (forgets.trans (shutAt_shrinks _ con)).trans (shrinks_table rfl)

/-- A listed connection whose number stays open keeps its entry. -/
theorem half_stays (listed : con ∈ world.mConnections.items)
    (remembers : assigned world none (some con) = some fd)
    (isOpen : (halfClosed world number).table.opened fd.number ≠ none) :
    con ∈ (halfClosed world number).mConnections.items := by
  obtain ⟨_, _, same⟩ | ⟨gone, index, object, goneFd, _, here, found, goneRemembers, _, _, same⟩ :=
    half_found world number
  · rw [same, forgetNew_connections]
    exact listed
  · have table := (shutAt_keeps (forgotten_found found number) goneRemembers).2.2
    have different : con ≠ gone := by
      rintro rfl
      have own : assigned world none (some con) = some goneFd := assigned_some found goneRemembers
      rw [own, Option.some.injEq] at remembers
      rw [same, ← remembers] at isOpen
      refine isOpen ((congrArg (fun table => table.opened goneFd.number) table).trans ?_)
      simp [Table.close]
    have counts := count_eraseIdx con here
    rw [if_neg different] at counts
    have positive := List.count_pos_iff.mpr listed
    rw [same]
    exact List.count_pos_iff.mp (by
      simp only [setConnections_items, Connections.erase]
      omega)

/-- Only the entry has gone by then, and an announcement with it; its reference is left. -/
theorem half_counts (world : World) (number : Nat) (con : ConRef) :
    counter (halfClosed world number) con = counter world con ∧
    (halfClosed world number).mConnections.items.count con +
      (if world.conBySockDesc number = some con then 1 else 0) =
        world.mConnections.items.count con ∧
    (halfClosed world number).mNewConnections = (world.forgetNew number).mNewConnections ∧
    (halfClosed world number).held = world.held ∧
    (halfClosed world number).created = world.created ∧
    ((halfClosed world number).objects con).isSome = (world.objects con).isSome := by
  obtain ⟨held, created, _⟩ := forgetNew_lists world number con
  have level : counter (world.forgetNew number) con = counter world con :=
    counter_congr _ con (forgetNew_objects world number)
  obtain ⟨unknown, _, same⟩ | ⟨gone, index, _, _, known, here, _, _, _, _, same⟩ :=
    half_found world number
  · rw [same, unknown]
    refine ⟨level, ?_, rfl, held, created, by rw [forgetNew_objects]⟩
    rw [forgetNew_connections]
    rfl
  · have shut := shutAt_references (world.forgetNew number) gone
    have erased := count_eraseIdx con here
    rw [same, known]
    refine ⟨(shut.counters con).trans level, ?_, shut.lists.new, shut.lists.held.trans held,
      shut.lists.created.trans created, ?_⟩
    · simp only [setConnections_items, Connections.erase, Option.some.injEq, @eq_comm _ gone]
      exact erased
    · rw [setConnections_objects, shut.known, forgetNew_objects]

theorem freed_half (freed : FreedAtZero world) (number : Nat) :
    FreedAtZero (halfClosed world number) := by
  have forgotten : FreedAtZero (world.forgetNew number) :=
    freed_congr freed (forgetNew_objects world number)
  obtain ⟨_, _, same⟩ | ⟨gone, index, _, _, _, _, _, _, _, _, same⟩ := half_found world number
  · rw [same]
    exact forgotten
  · rw [same]
    exact freed_congr ((shutAt_references _ gone).freed forgotten) rfl

theorem half_views {Part : Type} {part : Object → Part}
    (different : world.conBySockDesc number ≠ some con) :
    view part (halfClosed world number) con = view part world con := by
  obtain ⟨_, _, same⟩ | ⟨gone, index, _, _, known, _, _, _, _, _, same⟩ := half_found world number
  · rw [same, view_objects (forgetNew_objects world number)]
  · rw [same, view_objects (setConnections_objects _ _), World.shutAt,
      view_objects (close_objects _), view_setState_other .failed (by rintro rfl; exact different known),
      view_objects (forgetNew_objects world number)]

theorem forgotten_live (alive : AllLive world) (listed : con ∈ world.mConnections.items)
    (number : Nat) : live (world.forgetNew number) (some con) := by
  obtain ⟨there, found, lives⟩ := alive con listed
  exact ⟨there, by rw [forgetNew_objects]; exact found, lives⟩

theorem close_keeps (world : World) (number : Nat) :
    Keeps world (world.closeConnection number).2 := by
  have forgets := (forgetNew_neutral world number).keeps
  obtain ⟨_, same⟩ | ⟨con, index, object, fd, _, _, found, remembers, _, same⟩ :=
    close_found world number
  · rw [same]
    exact forgets
  · rw [same]
    exact forgets.trans (closeAt_keeps (by rw [forgetNew_objects]; exact found) remembers).1

theorem close_connection_shrinks (world : World) (number : Nat) :
    Shrinks world (world.closeConnection number).2 := by
  have forgets : Shrinks world (world.forgetNew number) := shrinks_table (forgetNew_table number)
  obtain ⟨_, same⟩ | ⟨con, index, _, _, _, _, _, _, _, same⟩ := close_found world number
  · rw [same]
    exact forgets
  · rw [same]
    exact forgets.trans (closeAt_shrinks _ con index)

theorem close_receipt (world : World) (number : Nat) :
    view receipt (world.closeConnection number).2 = view receipt world := by
  have forgets : view receipt (world.forgetNew number) = view receipt world :=
    view_objects (forgetNew_objects world number)
  obtain ⟨_, same⟩ | ⟨con, index, _, _, _, _, _, _, _, same⟩ := close_found world number
  · rw [same, forgets]
  · rw [same, closeAt_receipt, forgets]

theorem close_connection_sockets (world : World) (number : Nat) :
    (world.closeConnection number).2.sockets = world.sockets := by
  obtain ⟨_, same⟩ | ⟨con, index, _, _, _, _, _, _, _, same⟩ := close_found world number
  · rw [same, forgetNew_sockets]
  · rw [same, closeAt_sockets, forgetNew_sockets]

/-- The number of the closed connection is not open afterwards. -/
theorem close_connection_shut (known : world.conBySockDesc number = some con) :
    (world.closeConnection number).2.table.opened number = none := by
  obtain ⟨unknown, _⟩ | ⟨con, index, object, fd, _, _, found, remembers, hit, same⟩ :=
    close_found world number
  · rw [unknown] at known
    cases known
  · rw [same, ← hit]
    exact closeAt_shut (by rw [forgetNew_objects]; exact found) remembers

/-- Closed at the end of its stream, a connection leaves a socket that is closed for good. -/
theorem close_drained (roster : Roster world listening) (alive : AllLive world)
    (known : world.conBySockDesc number = some con) (empty : world.atEnd number = true) :
    Drained (world.closeConnection number).2 con := by
  obtain ⟨_, fd, serving, same, isOpen⟩ := lookup_found roster alive known
  refine ⟨fd, ?_, ?_, ?_⟩
  · rw [(close_keeps world number).assigned]
    exact serving_assigned serving none
  · intro place opened
    have before := close_connection_shrinks world number place fd.acquisition opened
    have home := roster.owned.home (some con) fd place (serving_assigned serving _) before
    rw [home, same, close_connection_shut known] at opened
    cases opened
  · rw [close_connection_sockets]
    simpa [World.atEnd, isOpen] using empty

theorem closeAt_items (world : World) (con : ConRef) (index : Nat) :
    (world.closeAt con index).mConnections.items = world.mConnections.items.eraseIdx index := by
  have lists := (setState_lists world con .failed).trans ((close_lists _
    ((world.objects con).bind fun object => object.con.mSockDesc)).trans (destroy_lists _ con))
  simp only [World.closeAt, setConnections_items, Connections.erase, lists.connections]

/-- A close brings nobody into the list. -/
theorem close_fewer (world : World) (number : Nat)
    (listed : con ∈ (world.closeConnection number).2.mConnections.items) :
    con ∈ world.mConnections.items := by
  obtain ⟨_, same⟩ | ⟨gone, index, _, _, _, _, _, _, _, same⟩ := close_found world number
  · rwa [same, forgetNew_connections] at listed
  · rw [same, closeAt_items, forgetNew_connections] at listed
    exact List.mem_of_mem_eraseIdx listed

theorem erased_absent {items : List ConRef} {index : Nat} (single : items.Nodup)
    (here : items[index]? = some con) : con ∉ items.eraseIdx index := by
  have counts := count_eraseIdx con here
  rw [if_pos rfl] at counts
  have once := List.nodup_iff_count_le_one.mp single con
  exact List.count_eq_zero.mp (by omega)

/-- A listed connection whose number stays open keeps its entry. -/
theorem close_stays (listed : con ∈ world.mConnections.items)
    (remembers : assigned world none (some con) = some fd)
    (isOpen : (world.closeConnection number).2.table.opened fd.number ≠ none) :
    con ∈ (world.closeConnection number).2.mConnections.items := by
  obtain ⟨_, same⟩ | ⟨gone, index, object, goneFd, known, here, found, goneRemembers, hit, same⟩ :=
    close_found world number
  · rw [same, forgetNew_connections]
    exact listed
  · have different : con ≠ gone := by
      rintro rfl
      rw [assigned_some found goneRemembers, Option.some.injEq] at remembers
      rw [← remembers, hit] at isOpen
      exact isOpen (close_connection_shut known)
    have counts := count_eraseIdx con here
    rw [if_neg different] at counts
    rw [same, closeAt_items, forgetNew_connections]
    have positive := List.count_pos_iff.mpr listed
    exact List.count_pos_iff.mp (by omega)

variable (roster : Roster world listening) (alive : AllLive world)
include roster alive

/-- Up to the drop of its reference a close leaves a roster: the entry it has still to erase is no
longer in use. -/
theorem roster_half (number : Nat) : Roster (halfClosed world number) listening := by
  have forgotten : Roster (world.forgetNew number) listening :=
    roster_neutral roster (forgetNew_neutral world number) (by rw [forgetNew_connections])
  obtain ⟨_, _, same⟩ | ⟨con, index, object, fd, _, here, found, remembers, _, _, same⟩ :=
    half_found world number
  · rw [same]
    exact forgotten
  · have foundThere := forgotten_found found number
    have isLive := forgotten_live alive (List.mem_of_getElem? here) number
    rw [same]
    refine ⟨owned_keeps (owned_shutAt forgotten.owned isLive foundThere remembers)
      (keeps_objects rfl) rfl, roster.single.eraseIdx index, ?_⟩
    intro other stays
    have different : other ≠ con := by
      rintro rfl
      exact erased_absent roster.single here stays
    obtain ⟨otherFd, serving⟩ := forgotten.serving other (by
      rw [forgetNew_connections]
      exact List.mem_of_mem_eraseIdx stays)
    exact ⟨otherFd, serving_view serving (shutAt_standing different)⟩

theorem settled_half (number : Nat) (settled : SettledWorld world listening) :
    SettledWorld (halfClosed world number) listening := by
  have forgets := forgetNew_neutral world number
  have forgotten := settled_keeps settled forgets.keeps forgets.table
  have owned := owned_keeps roster.owned forgets.keeps forgets.table
  obtain ⟨_, _, same⟩ | ⟨con, index, object, fd, _, here, found, remembers, _, _, same⟩ :=
    half_found world number
  · rw [same]
    exact forgotten
  · have isLive := forgotten_live alive (List.mem_of_getElem? here) number
    have shut := settled_shutAt forgotten owned isLive (forgotten_found found number) remembers
    rw [same]
    exact settled_keeps shut (keeps_objects rfl) rfl

theorem roster_close (number : Nat) : Roster (world.closeConnection number).2 listening := by
  have half := roster_half roster alive number
  rw [close_half]
  obtain ⟨_, nothing, _⟩ | ⟨con, index, object, fd, _, here, found, remembers, hit, aimed, same⟩ :=
    half_found world number
  · rw [nothing]
    exact half
  · rw [aimed]
    have foundThere := forgotten_found found number
    obtain ⟨keeps, _, table⟩ := shutAt_keeps foundThere remembers
    refine roster_frame half (destroyed_owned half.owned fun other stillRemembers => ?_)
      (view_destroy standing_uncounted _ con)
      (congrArg Connections.items (destroy_lists _ con).connections)
    -- its number has just been closed, so the drop of a last reference hits nobody
    have shut : ((world.forgetNew number).shutAt con).table.opened fd.number = none := by
      rw [table]
      simp [Table.close]
    have lists : Keeps ((world.forgetNew number).shutAt con) (halfClosed world number) := by
      rw [same]
      exact keeps_objects rfl
    have own : other = fd := by
      rw [lists.assigned, keeps.assigned, assigned_some foundThere remembers,
        Option.some.injEq] at stillRemembers
      exact stillRemembers.symm
    rw [same, own]
    exact shut

end Closing

end Libasock.RegisteredConnections
