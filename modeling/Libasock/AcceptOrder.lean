import Libasock.ServerDescriptors
import Mathlib.Data.List.Sort

/-!
What `asock_server_accept` hands out. Connections are numbered as `accept()`
returns them, so the order of arrival is the order of the places. A close takes
the same connection out of both lists as long as no two registered connections
remember one number; then `m_new_connections` stays a part of `m_connections`
and a connection leaves it for the user or for a close, never for nothing.
-/

namespace Libasock.AcceptOrder
open ByteBlocks GuardedRuns NumberReuse ReturnCodes ConnectionObjects WorkerWorld ReferenceCounts
  SocketContents RegisteredConnections ServerWorker ServerReferences
  ServerDescriptors

/-- A server and what its users were handed out so far. -/
structure Desk where
  server : Server
  accepted : List ConRef

/-- The result of `asock_server_accept`. -/
def returned (server : Server) : Label → Option ConRef
  | .userAccept => server.world.mNewConnections.items.head?
  | _ => none

def step (desk : Desk) (label : Label) : Option Desk :=
  (ServerWorker.step desk.server label).map fun after =>
    ⟨after, desk.accepted ++ (returned desk.server label).toList⟩

def Desk.listening (mServerId : Int) (number : Nat) : Desk := ⟨.listening mServerId number, []⟩

/-- The number `accept()` returns. -/
def arriving : Label → Option Nat
  | .accept number _ _ => some number
  | _ => none

/-- Allocations succeed and `accept()` returns no number of a registered connection. -/
structure Supplied (desk : Desk) (label : Label) : Prop where
  granted : undoes label = false
  unused : ∀ number ∈ arriving label, ∀ con ∈ desk.server.world.mConnections.items,
    desk.server.world.hasSockDesc number con = false

instance (desk : Desk) (label : Label) : Decidable (Supplied desk label) :=
  decidable_of_iff (undoes label = false ∧
    ∀ number ∈ arriving label, ∀ con ∈ desk.server.world.mConnections.items,
      desk.server.world.hasSockDesc number con = false)
    ⟨fun ⟨granted, unused⟩ => ⟨granted, unused⟩,
      fun supplied => ⟨supplied.granted, supplied.unused⟩⟩

/-- `asock_server_close_connection` is the one place that marks a connection of a server. -/
def Closed (world : World) (con : ConRef) : Prop :=
  ∃ object, world.objects con = some object ∧ object.con.mState = .failed

structure InOrder (desk : Desk) : Prop where
  part : desk.server.world.mNewConnections.items.Sublist desk.server.world.mConnections.items
  single : desk.server.world.mNewConnections.items.Nodup
  /-- The next call returns a connection that is still open to its worker. -/
  unclosed : ∀ con ∈ desk.server.world.mNewConnections.items, ¬ Closed desk.server.world con
  arrival : desk.accepted.Pairwise (· < ·)
  kept : making desk.server.pc = none → desk.server.pc ≠ .destroyed →
    ∀ con < desk.server.world.created, Closed desk.server.world con ∨ con ∈ desk.accepted ∨
      con ∈ desk.server.world.mNewConnections.items

/-- The invariant behind `InOrder`, which also covers the accept iteration. -/
structure Queued (world : World) (pc : Pc) (accepted : List ConRef) : Prop where
  placed : ∀ con, (world.objects con).isSome ↔ con < world.created
  ordered : world.mConnections.items.Pairwise (· < ·)
  serving : ∀ con ∈ world.mConnections.items, ∃ fd, Serving world con fd
  apart : ∀ left ∈ world.mConnections.items, ∀ right ∈ world.mConnections.items,
    ∀ leftFd rightFd, Serving world left leftFd → Serving world right rightFd →
      leftFd.number = rightFd.number → left = right
  part : world.mNewConnections.items.Sublist world.mConnections.items
  arrival : (accepted ++ world.mNewConnections.items).Pairwise (· < ·)
  handed : ∀ con ∈ accepted, con < world.created
  newest : ∀ con infd, making pc = some (con, infd) → Serving world con infd ∧
    con + 1 = world.created ∧ ∀ other ∈ accepted ++ world.mNewConnections.items, other < con
  fresh : ∀ con infd, pc = .created con infd →
    (∀ other ∈ world.mConnections.items, other < con) ∧
    ∀ other ∈ world.mConnections.items, world.hasSockDesc infd.number other = false
  whole : pc ≠ .destroyed → ∀ con < world.created, unregistered pc ≠ some con →
    Closed world con ∨ con ∈ world.mConnections.items
  kept : ∀ con ∈ world.mConnections.items, con ∈ accepted ∨
    con ∈ world.mNewConnections.items ∨ ∃ infd, making pc = some (con, infd)

variable {world after : World} {pc next : Pc} {accepted : List ConRef} {con other : ConRef}

section Facts

theorem closed_view (same : view standing after con = view standing world con)
    (closed : Closed world con) : Closed after con := by
  obtain ⟨object, found, failed⟩ := closed
  rw [view, view, found, Option.map_some] at same
  obtain ⟨there, foundThere, equal⟩ := Option.map_eq_some_iff.mp same
  simp only [standing, Prod.mk.injEq] at equal
  exact ⟨there, foundThere, equal.2.trans failed⟩

theorem serving_unclosed {fd : Descriptor} (serving : Serving world con fd) :
    ¬ Closed world con := by
  rintro ⟨object, found, failed⟩
  obtain ⟨there, foundThere, _, unfailed⟩ := serving_object serving
  rw [found, Option.some.injEq] at foundThere
  subst foundThere
  exact unfailed failed

theorem has_serving {fd : Descriptor} {number : Nat} (serving : Serving world con fd)
    (has : world.hasSockDesc number con = true) : fd.number = number := by
  obtain ⟨object, found, remembers, _⟩ := serving_object serving
  obtain ⟨there, fdThere, foundThere, remembersThere, same⟩ := has_object world has
  rw [found, Option.some.injEq] at foundThere
  subst foundThere
  rw [remembers, Option.some.injEq] at remembersThere
  rwa [remembersThere]

theorem queued_single (queued : Queued world pc accepted) :
    world.mConnections.items.Nodup := queued.ordered.imp Nat.ne_of_lt

theorem queued_known (queued : Queued world pc accepted)
    (member : con ∈ world.mConnections.items) : con < world.created := by
  obtain ⟨fd, serving⟩ := queued.serving con member
  obtain ⟨object, found, _⟩ := serving_object serving
  exact (queued.placed con).mp (by rw [found]; rfl)

theorem queued_inOrder {desk : Desk}
    (queued : Queued desk.server.world desk.server.pc desk.accepted) : InOrder desk := by
  refine ⟨queued.part, (queued_single queued).sublist queued.part, ?_, ?_, ?_⟩
  · intro con member
    obtain ⟨fd, serving⟩ := queued.serving con (queued.part.subset member)
    exact serving_unclosed serving
  · exact (List.pairwise_append.mp queued.arrival).1
  · intro quiet standing con below
    have pushed : unregistered desk.server.pc ≠ some con := by
      intro hidden
      cases pc : desk.server.pc <;> simp_all [unregistered, making]
    rcases queued.whole standing con below pushed with closed | listed
    · exact .inl closed
    · rcases queued.kept con listed with out | waits | ⟨infd, makes⟩
      · exact .inr (.inl out)
      · exact .inr (.inr waits)
      · rw [quiet] at makes
        cases makes

end Facts

section Frames

theorem unmade_pushed (quiet : making pc = none) : unregistered pc ≠ some con := by
  intro hidden
  cases pc <;> simp_all [unregistered, making]

/-- A step that moves nothing in either list and marks no connection. -/
theorem queued_frame (queued : Queued world pc accepted)
    (same : view standing after = view standing world)
    (connections : after.mConnections = world.mConnections)
    (new : after.mNewConnections = world.mNewConnections) (created : after.created = world.created) :
    Queued after pc accepted := by
  have known : ∀ con, (after.objects con).isSome = (world.objects con).isSome := by
    intro con
    simpa [view] using congrArg Option.isSome (congrFun same con)
  have back : ∀ {con fd}, Serving after con fd → Serving world con fd := fun serving =>
    serving_view serving (congrFun same _).symm
  have there : ∀ {con fd}, Serving world con fd → Serving after con fd := fun serving =>
    serving_view serving (congrFun same _)
  constructor
  case placed =>
    intro con
    rw [known, created]
    exact queued.placed con
  case ordered =>
    rw [connections]
    exact queued.ordered
  case serving =>
    intro con member
    rw [connections] at member
    obtain ⟨fd, serving⟩ := queued.serving con member
    exact ⟨fd, there serving⟩
  case apart =>
    intro left leftListed right rightListed leftFd rightFd leftServing rightServing
    rw [connections] at leftListed rightListed
    exact queued.apart left leftListed right rightListed leftFd rightFd (back leftServing)
      (back rightServing)
  case part =>
    rw [new, connections]
    exact queued.part
  case arrival =>
    rw [new]
    exact queued.arrival
  case handed =>
    rw [created]
    exact queued.handed
  case newest =>
    intro con infd makes
    obtain ⟨serving, last, later⟩ := queued.newest con infd makes
    rw [created, new]
    exact ⟨there serving, last, later⟩
  case fresh =>
    intro con infd isNew
    obtain ⟨later, unused⟩ := queued.fresh con infd isNew
    rw [connections]
    refine ⟨later, fun other member => ?_⟩
    obtain ⟨fd, serving⟩ := queued.serving other member
    cases has : after.hasSockDesc infd.number other with
    | false => rfl
    | true =>
        obtain ⟨object, found, remembers, _⟩ := serving_object serving
        have hit := object_has world found remembers (has_serving (there serving) has)
        rw [unused other member] at hit
        cases hit
  case whole =>
    intro runs con below pushed
    rw [created] at below
    rw [connections]
    exact (queued.whole runs con below pushed).imp (closed_view (congrFun same con)) id
  case kept =>
    intro con member
    rw [connections] at member
    rw [new]
    exact queued.kept con member

/-- No list changes at all. -/
theorem queued_same (queued : Queued world pc accepted)
    (same : view standing after = view standing world) (lists : SameLists world after) :
    Queued after pc accepted :=
  queued_frame queued same lists.connections lists.new lists.created

theorem queued_turn (queued : Queued world pc accepted) (runs : pc ≠ .destroyed)
    (quiet : making pc = none) (quietNext : making next = none) :
    Queued world next accepted := by
  refine { queued with newest := ?_, fresh := ?_, whole := ?_, kept := ?_ }
  · intro con infd makes
    rw [quietNext] at makes
    cases makes
  · intro con infd created
    rw [created] at quietNext
    cases quietNext
  · intro _ con below _
    exact queued.whole runs con below (unmade_pushed quiet)
  · intro con member
    rcases queued.kept con member with out | waits | ⟨infd, makes⟩
    · exact .inl out
    · exact .inr (.inl waits)
    · rw [quiet] at makes
      cases makes

end Frames

section Closing

variable {items : List ConRef} {test : ConRef → Bool}

/-- Where only one entry passes the test, the first-match erase is the erase of that entry. -/
theorem erase_first (single : items.Nodup) (holds : test con = true)
    (only : ∀ other ∈ items, test other = true → other = con) :
    (match items.findIdx? test with
      | none => items
      | some index => items.eraseIdx index) = items.erase con := by
  cases found : items.findIdx? test with
  | none =>
      rw [List.findIdx?_eq_none_iff] at found
      refine (List.erase_of_not_mem fun member => ?_).symm
      rw [found con member] at holds
      cases holds
  | some index =>
      obtain ⟨inside, passes, _⟩ := List.findIdx?_eq_some_iff_getElem.mp found
      have entry := only _ (List.getElem_mem inside) passes
      simp only
      rw [← single.erase_getElem index inside, entry]

theorem forgetNew_items (world : World) (number : Nat) :
    (world.forgetNew number).mNewConnections.items =
      match world.mNewConnections.items.findIdx? (world.hasSockDesc number) with
      | none => world.mNewConnections.items
      | some index => world.mNewConnections.items.eraseIdx index := by
  cases found : world.mNewConnections.items.findIdx? (world.hasSockDesc number) with
  | none => simp only [World.forgetNew, found]
  | some index =>
      simp only [World.forgetNew, found]
      rfl

theorem closeAt_closed {object : Object} {index : Nat} (found : world.objects con = some object) :
    Closed (world.closeAt con index) con := by
  have failed : view standing ((world.setState con .failed).close object.con.mSockDesc) con =
      some (object.con.mSockDesc, .failed) := by
    rw [view_objects (close_objects _)]
    simp [view, World.setState, found, World.put, standing]
  rw [← view_destroy standing_uncounted] at failed
  obtain ⟨there, foundThere, equal⟩ := Option.map_eq_some_iff.mp failed
  simp only [standing, Prod.mk.injEq] at equal
  refine ⟨there, ?_, equal.2⟩
  simp only [World.closeAt, setConnections_objects, found, Option.bind_some]
  exact foundThere

/-- A close finds nobody and changes nothing, or takes one connection out of both lists. -/
theorem close_erases (queued : Queued world pc accepted) (number : Nat) :
    (world.closeConnection number).2 = world ∨
    ∃ con ∈ world.mConnections.items,
      (world.closeConnection number).2.mConnections.items = world.mConnections.items.erase con ∧
      (world.closeConnection number).2.mNewConnections.items =
        world.mNewConnections.items.erase con ∧
      (world.closeConnection number).2.created = world.created ∧
      Closed (world.closeConnection number).2 con ∧
      ∀ other, other ≠ con →
        view standing (world.closeConnection number).2 other = view standing world other := by
  -- no two registered connections remember one number
  have only : ∀ {left right}, left ∈ world.mConnections.items →
      right ∈ world.mConnections.items → world.hasSockDesc number left = true →
      world.hasSockDesc number right = true → left = right := by
    intro left right leftListed rightListed leftHas rightHas
    obtain ⟨leftFd, leftServing⟩ := queued.serving left leftListed
    obtain ⟨rightFd, rightServing⟩ := queued.serving right rightListed
    exact queued.apart left leftListed right rightListed leftFd rightFd leftServing rightServing
      ((has_serving leftServing leftHas).trans (has_serving rightServing rightHas).symm)
  obtain ⟨unknown, same⟩ | ⟨con, index, object, fd, known, here, found, remembers, hit, same⟩ :=
    close_found world number
  · left
    rw [same]
    apply forgetNew_unused
    intro waiting member
    rcases lookup_cases world number with ⟨absent, _⟩ | ⟨con, index, _, known, _⟩
    · exact List.findIdx?_eq_none_iff.mp absent waiting (queued.part.subset member)
    · rw [unknown] at known
      cases known
  · have listed := List.mem_of_getElem? here
    have has := object_has world found remembers hit
    obtain ⟨inside, entry⟩ := List.getElem?_eq_some_iff.mp here
    have foundThere : (world.forgetNew number).objects con = some object := by
      rw [forgetNew_objects]
      exact found
    obtain ⟨_, _, new, _, created, _⟩ := closeAt_counts con foundThere
      (by rw [forgetNew_connections]; exact here)
    have forgets := forgetNew_lists world number con
    refine .inr ⟨con, listed, ?_, ?_, ?_, ?_, ?_⟩
    · rw [same, closeAt_items, forgetNew_connections,
        ← (queued_single queued).erase_getElem index inside, entry]
    · rw [same, new, forgetNew_items]
      exact erase_first ((queued_single queued).sublist queued.part) has fun other member passes =>
        only (queued.part.subset member) listed passes has
    · rw [same, created, forgets.2.1]
    · rw [same]
      exact closeAt_closed foundThere
    · intro other different
      rw [same, closeAt_standing different, view_objects (forgetNew_objects world number)]

theorem close_queued (queued : Queued world pc accepted) (quiet : making pc = none)
    (number : Nat) : Queued (world.closeConnection number).2 pc accepted := by
  obtain same | ⟨con, listed, items, new, created, closed, others⟩ := close_erases queued number
  · rw [same]
    exact queued
  · have single := queued_single queued
    have known : ∀ other, ((world.closeConnection number).2.objects other).isSome =
        (world.objects other).isSome := fun other => (close_counts world other number).2.2.2.2
    have away : ∀ {other}, other ∈ (world.closeConnection number).2.mConnections.items →
        other ≠ con ∧ other ∈ world.mConnections.items := by
      intro other member
      rw [items] at member
      exact single.mem_erase_iff.mp member
    have back : ∀ {other fd}, other ≠ con →
        Serving (world.closeConnection number).2 other fd → Serving world other fd :=
      fun different serving => serving_view serving (others _ different).symm
    constructor
    case placed =>
      intro other
      rw [known, created]
      exact queued.placed other
    case ordered =>
      rw [items]
      exact queued.ordered.erase con
    case serving =>
      intro other member
      obtain ⟨different, before⟩ := away member
      obtain ⟨fd, serving⟩ := queued.serving other before
      exact ⟨fd, serving_view serving (others other different)⟩
    case apart =>
      intro left leftListed right rightListed leftFd rightFd leftServing rightServing
      obtain ⟨leftAway, leftBefore⟩ := away leftListed
      obtain ⟨rightAway, rightBefore⟩ := away rightListed
      exact queued.apart left leftBefore right rightBefore leftFd rightFd (back leftAway leftServing)
        (back rightAway rightServing)
    case part =>
      rw [items, new]
      exact queued.part.erase con
    case arrival =>
      rw [new]
      exact queued.arrival.sublist (List.Sublist.append_left List.erase_sublist accepted)
    case handed =>
      rw [created]
      exact queued.handed
    case newest =>
      intro other infd makes
      rw [quiet] at makes
      cases makes
    case fresh =>
      intro other infd impossible
      rw [impossible] at quiet
      cases quiet
    case whole =>
      intro runs other below pushed
      rw [created] at below
      by_cases hit : other = con
      · subst hit
        exact .inl closed
      · rw [items, single.mem_erase_iff]
        exact (queued.whole runs other below pushed).imp (closed_view (others other hit))
          fun member => ⟨hit, member⟩
    case kept =>
      intro other member
      obtain ⟨different, before⟩ := away member
      rw [new, List.mem_erase_of_ne different]
      exact queued.kept other before

end Closing

section Arriving

variable {infd : Descriptor}

/-- A new object takes the next place; it is in neither list yet. -/
theorem add_queued {made : Asock} (queued : Queued world pc accepted) (runs : pc ≠ .destroyed)
    (quiet : making pc = none) (remembers : made.mSockDesc = some infd)
    (unfailed : made.mState ≠ .failed)
    (unused : ∀ con ∈ world.mConnections.items, world.hasSockDesc infd.number con = false) :
    Queued (world.add made) (.created world.created infd) accepted := by
  have below : ∀ con ∈ world.mConnections.items, con < world.created := fun con =>
    queued_known queued
  have old : ∀ con, con ∈ world.mConnections.items →
      view standing (world.add made) con = view standing world con := by
    intro con member
    exact added_view made (Nat.ne_of_lt (below con member))
  have back : ∀ {con fd}, con ∈ world.mConnections.items → Serving (world.add made) con fd →
      Serving world con fd := fun member serving => serving_view serving (old _ member).symm
  have handed : ∀ con ∈ accepted ++ world.mNewConnections.items, con < world.created := by
    intro con member
    rcases List.mem_append.mp member with out | waits
    · exact queued.handed con out
    · exact below con (queued.part.subset waits)
  constructor
  case placed =>
    intro con
    have next : (world.add made).created = world.created + 1 := rfl
    rw [add_isSome, next, Bool.or_eq_true, decide_eq_true_eq, queued.placed]
    exact or_comm.trans Nat.lt_succ_iff_lt_or_eq.symm
  case ordered => exact queued.ordered
  case serving =>
    intro con member
    obtain ⟨fd, serving⟩ := queued.serving con member
    exact ⟨fd, serving_view serving (old con member)⟩
  case apart =>
    intro left leftListed right rightListed leftFd rightFd leftServing rightServing
    exact queued.apart left leftListed right rightListed leftFd rightFd
      (back leftListed leftServing) (back rightListed rightServing)
  case part => exact queued.part
  case arrival => exact queued.arrival
  case handed => exact fun con out => Nat.lt_succ_of_lt (queued.handed con out)
  case newest =>
    intro con fd makes
    cases makes
    exact ⟨added_serving made remembers unfailed, rfl, handed⟩
  case fresh =>
    intro con fd created
    cases created
    refine ⟨below, fun other member => ?_⟩
    rw [← unused other member]
    simp [World.hasSockDesc, added_objects, World.put, Nat.ne_of_lt (below other member)]
  case whole =>
    intro _ con inside pushed
    have earlier : con < world.created := by
      have next : con < world.created + 1 := inside
      have different : con ≠ world.created := by
        rintro rfl
        exact pushed rfl
      omega
    exact (queued.whole runs con earlier (unmade_pushed quiet)).imp
      (closed_view (added_view made (Nat.ne_of_lt earlier))) id
  case kept =>
    intro con member
    rcases queued.kept con member with out | waits | ⟨_, makes⟩
    · exact .inl out
    · exact .inr (.inl waits)
    · rw [quiet] at makes
      cases makes

/-- `accept()` returns a number no registered connection has, and the object is made. -/
theorem accept_queued {server after : Server} {number : Nat} {peer : List Byte}
    {answers : AcceptAnswers} (queued : Queued server.world server.pc accepted)
    (pc : server.pc = .accepting) (granted : answers.peerAddr = true)
    (unused : ∀ con ∈ server.world.mConnections.items,
      server.world.hasSockDesc number con = false)
    (accepts : acceptStep server number peer answers = some after) :
    Queued after.world after.pc accepted := by
  have idle : making server.pc = none := by rw [pc]; rfl
  have runs : server.pc ≠ .destroyed := by rw [pc]; intro impossible; cases impossible
  obtain ⟨infd, world, acquires, rfl | ⟨made, arrived, rfl | ⟨refused, _⟩⟩⟩ := accept_cases accepts
  · obtain ⟨objects, _⟩ := acquire_effect acquires
    have closed := queued_same queued
      (view_objects ((close_objects (some infd)).trans objects))
      ((acquire_references acquires).lists.trans (close_lists world (some infd)))
    exact queued_turn closed runs idle rfl
  · obtain ⟨objects, table, _⟩ := acquire_effect acquires
    have lists := (acquire_references acquires).lists
    have same : infd.number = number := by
      obtain ⟨_, rfl, _⟩ := acquire_shape table
      rfl
    have unfailed : made.mState ≠ .failed := by
      rw [arrived.established]
      decide
    refine add_queued (queued_same queued (view_objects objects) lists) runs idle
      arrived.descriptor unfailed fun con member => ?_
    rw [lists.connections] at member
    simp only [World.hasSockDesc, objects, same]
    exact unused con member
  · rw [granted] at refused
    cases refused

theorem register_queued {server : Server} {granted : Bool} (given : granted = true)
    (queued : Queued server.world server.pc accepted) (pc : server.pc = .created con infd) :
    Queued (registerStep server con infd granted).world
      (registerStep server con infd granted).pc accepted := by
  obtain ⟨serving, last, later⟩ := queued.newest con infd (by rw [pc]; rfl)
  obtain ⟨below, unused⟩ := queued.fresh con infd pc
  rcases register_cases server con infd granted with ⟨items, same⟩ | ⟨refused, _, same⟩
  · have unlisted : ∀ other ∈ server.world.mConnections.items, ∀ fd,
        Serving server.world other fd → fd.number ≠ infd.number := by
      intro other member fd otherServing same
      obtain ⟨object, found, remembers, _⟩ := serving_object otherServing
      have has := object_has server.world found remembers same
      rw [unused other member] at has
      cases has
    rw [same]
    constructor
    case placed => exact queued.placed
    case ordered =>
      rw [setConnections_items, items, List.pairwise_append]
      refine ⟨queued.ordered, List.pairwise_singleton _ con, fun other member new isNew => ?_⟩
      cases List.mem_singleton.mp isNew
      exact below other member
    case serving =>
      intro other member
      rw [setConnections_items, items, List.mem_append, List.mem_singleton] at member
      rcases member with before | rfl
      · exact queued.serving other before
      · exact ⟨infd, serving⟩
    case apart =>
      intro left leftListed right rightListed leftFd rightFd leftServing rightServing same
      rw [setConnections_items, items, List.mem_append, List.mem_singleton] at leftListed rightListed
      rcases leftListed with leftBefore | rfl <;> rcases rightListed with rightBefore | rfl
      · exact queued.apart left leftBefore right rightBefore leftFd rightFd leftServing rightServing
          same
      · cases serving_unique serving rightServing
        exact absurd same (unlisted left leftBefore leftFd leftServing)
      · cases serving_unique serving leftServing
        exact absurd same.symm (unlisted right rightBefore rightFd rightServing)
      · rfl
    case part =>
      rw [setConnections_items, items]
      exact queued.part.trans (List.sublist_append_left _ _)
    case arrival => exact queued.arrival
    case handed => exact queued.handed
    case newest =>
      intro other fd makes
      cases makes
      exact ⟨serving, last, later⟩
    case fresh =>
      intro other fd impossible
      cases impossible
    case whole =>
      intro _ other inside _
      rw [setConnections_items, items, List.mem_append, List.mem_singleton]
      by_cases hit : other = con
      · exact .inr (.inr hit)
      · have runs : server.pc ≠ .destroyed := by rw [pc]; intro impossible; cases impossible
        have pushed : unregistered server.pc ≠ some other := by
          rw [pc]
          intro same
          exact hit (Option.some.inj same).symm
        exact (queued.whole runs other inside pushed).imp id .inl
    case kept =>
      intro other member
      rw [setConnections_items, items, List.mem_append, List.mem_singleton] at member
      rcases member with before | rfl
      · rcases queued.kept other before with out | waits | ⟨fd, makes⟩
        · exact .inl out
        · exact .inr (.inl waits)
        · rw [pc] at makes
          cases makes
          exact .inr (.inr ⟨infd, rfl⟩)
      · exact .inr (.inr ⟨infd, rfl⟩)
  · rw [given] at refused
    cases refused

theorem announce_queued {server : Server} {granted : Bool} (given : granted = true)
    (queued : Queued server.world server.pc accepted) (pc : server.pc = .registered con infd) :
    Queued (announceStep server con infd granted).world
      (announceStep server con infd granted).pc accepted := by
  obtain ⟨serving, last, later⟩ := queued.newest con infd (by rw [pc]; rfl)
  have listed : con ∈ server.world.mConnections.items := by
    have below : con < server.world.created := last ▸ Nat.lt_succ_self con
    have pushed : unregistered server.pc ≠ some con := by
      rw [pc]
      intro impossible
      cases impossible
    exact (queued.whole (by rw [pc]; intro impossible; cases impossible) con below
      pushed).resolve_left (serving_unclosed serving)
  have runs : server.pc ≠ .destroyed := by rw [pc]; intro impossible; cases impossible
  rcases announce_cases server con infd granted with ⟨items, same⟩ | ⟨refused, _, same⟩
  · rw [same]
    constructor
    case placed => exact queued.placed
    case ordered => exact queued.ordered
    case serving => exact queued.serving
    case apart => exact queued.apart
    case part =>
      rw [setNew_items, items]
      have joined : (server.world.mNewConnections.items ++ [con]).Pairwise (· < ·) := by
        rw [List.pairwise_append]
        refine ⟨queued.ordered.sublist queued.part, List.pairwise_singleton _ con, ?_⟩
        intro other waits new isNew
        cases List.mem_singleton.mp isNew
        exact later other (List.mem_append.mpr (.inr waits))
      -- both lists are in order of arrival, so a subset is already a part in the same order
      refine List.sublist_of_subperm_of_pairwise (List.subperm_of_subset
        (joined.imp Nat.ne_of_lt) ?_) joined queued.ordered
      intro other member
      rcases List.mem_append.mp member with waits | isNew
      · exact queued.part.subset waits
      · cases List.mem_singleton.mp isNew
        exact listed
    case arrival =>
      rw [setNew_items, items, ← List.append_assoc, List.pairwise_append]
      refine ⟨queued.arrival, List.pairwise_singleton _ con, fun other member new isNew => ?_⟩
      cases List.mem_singleton.mp isNew
      exact later other member
    case handed => exact queued.handed
    case newest =>
      intro other fd makes
      cases makes
    case fresh =>
      intro other fd impossible
      cases impossible
    case whole =>
      intro _ other inside _
      exact queued.whole runs other inside (by rw [pc]; intro impossible; cases impossible)
    case kept =>
      intro other member
      rw [setNew_items, items, List.mem_append, List.mem_singleton]
      rcases queued.kept other member with out | waits | ⟨fd, makes⟩
      · exact .inl out
      · exact .inr (.inl (.inl waits))
      · rw [pc] at makes
        cases makes
        exact .inr (.inl (.inr rfl))
  · rw [given] at refused
    cases refused

end Arriving

section Steps

variable {server : Server} {label : Label}

/-- The head of `m_new_connections` is handed out. -/
theorem userAccept_queued (queued : Queued server.world server.pc accepted) :
    Queued (userAcceptStep server).world (userAcceptStep server).pc
      (accepted ++ server.world.mNewConnections.items.head?.toList) := by
  unfold userAcceptStep
  cases items : server.world.mNewConnections.items with
  | nil => simpa [items] using queued
  | cons con rest =>
      have part := queued.part
      have arrival := queued.arrival
      have known : con < server.world.created := by
        apply queued_known queued
        apply part.subset
        rw [items]
        exact List.mem_cons_self
      rw [items] at part arrival
      have erased : (server.world.mNewConnections.erase 0).items = rest := by
        simp [Connections.erase, items]
      simp only [List.head?_cons, Option.toList_some]
      constructor
      case placed => exact queued.placed
      case ordered => exact queued.ordered
      case serving => exact queued.serving
      case apart => exact queued.apart
      case part =>
        rw [setHeld_new, setNew_items, erased]
        exact (List.sublist_cons_self con rest).trans part
      case arrival =>
        rw [setHeld_new, setNew_items, erased, List.append_assoc]
        exact arrival
      case handed =>
        intro other member
        rcases List.mem_append.mp member with out | isNew
        · exact queued.handed other out
        · cases List.mem_singleton.mp isNew
          exact known
      case newest =>
        intro other infd makes
        obtain ⟨serving, last, later⟩ := queued.newest other infd makes
        rw [items] at later
        rw [setHeld_new, setNew_items, erased, List.append_assoc]
        exact ⟨serving, last, later⟩
      case fresh => exact queued.fresh
      case whole => exact queued.whole
      case kept =>
        intro other member
        rw [setHeld_new, setNew_items, erased, List.mem_append, List.mem_singleton]
        rcases queued.kept other member with out | waits | isMaking
        · exact .inl (.inl out)
        · rw [items, List.mem_cons] at waits
          exact waits.elim (fun hit => .inl (.inr hit)) fun later => .inr (.inl later)
        · exact .inr (.inr isMaking)

theorem destroyServer_queued (queued : Queued server.world server.pc accepted) :
    Queued (destroyServerStep server).world (destroyServerStep server).pc accepted := by
  have arrival := (List.pairwise_append.mp queued.arrival).1
  constructor
  case placed => exact queued.placed
  case ordered => exact List.Pairwise.nil
  case serving =>
    intro con member
    cases member
  case apart =>
    intro left member
    cases member
  case part => exact List.Sublist.refl []
  case arrival => simpa [destroyServerStep, Connections.clear] using arrival
  case handed => exact queued.handed
  case newest =>
    intro con infd makes
    cases makes
  case fresh =>
    intro con infd impossible
    cases impossible
  case whole =>
    intro runs
    exact absurd rfl runs
  case kept =>
    intro con member
    cases member

theorem userAccepted_step {after : Server}
    (moves : ServerWorker.step server .userAccept = some after) : after = userAcceptStep server := by
  simp only [ServerWorker.step, Label.byUser, if_true, userStep] at moves
  split at moves
  · cases moves
  · exact (Option.some.inj moves).symm

theorem stop_queued (queued : Queued server.world server.pc accepted) (pc : server.pc = .ready) :
    Queued (stopStep server).world (stopStep server).pc accepted := by
  have quiet : making server.pc = none := by rw [pc]; rfl
  have runs : server.pc ≠ .destroyed := by rw [pc]; intro impossible; cases impossible
  have dropped := queued_same queued (view_destroyAll standing_uncounted _ _)
    (destroyAll_lists server.world server.world.mConnections.items)
  have closed := queued_same dropped (view_objects (close_objects _))
    (close_lists _ (some server.mServerSocket))
  exact queued_turn closed runs quiet rfl

theorem userDestroy_queued (queued : Queued world pc accepted)
    (destroys : world.userDestroy con = some after) : Queued after pc accepted := by
  obtain ⟨connections, new, _⟩ := userDestroy_effect destroys
  have same := userDestroy_views standing_uncounted destroys
  obtain ⟨_, rfl⟩ := userDestroy_cases _ destroys
  exact queued_frame queued same connections new (destroy_lists _ con).created

theorem step_queued {before after : Desk}
    (queued : Queued before.server.world before.server.pc before.accepted)
    (supplied : Supplied before label) (stepped : step before label = some after) :
    Queued after.server.world after.server.pc after.accepted := by
  obtain ⟨server, moves, rfl⟩ := Option.map_eq_some_iff.mp stepped
  have granted := supplied.granted
  by_cases accepts : label = .userAccept
  · subst accepts
    rw [userAccepted_step moves]
    exact userAccept_queued queued
  · have nothing : returned before.server label = none := by
      cases label <;> first | rfl | exact absurd rfl accepts
    simp only [nothing, Option.toList_none, List.append_nil]
    cases step_moved moves with
    | closed number peer closing asked cause =>
        have quiet := (quiet_running (mayClose_quiet closing)).2.1
        have runs : before.server.pc ≠ .destroyed := by
          intro pc
          rw [pc] at closing
          cases closing
        exact queued_turn (close_queued queued quiet number) runs quiet rfl
    | turned pc isQuiet quietNext =>
        have runs : before.server.pc ≠ .destroyed := by
          intro pc
          rw [pc] at isQuiet
          cases isQuiet
        exact queued_turn queued runs (quiet_running isQuiet).2.1 (quiet_running quietNext).2.1
    | @accepted number peer answers _ pc accepts =>
        refine accept_queued queued pc (by simpa [undoes] using granted) ?_ accepts
        exact supplied.unused number rfl
    | registered con infd pc => exact register_queued (by simpa [undoes] using granted) queued pc
    | announced con infd pc => exact announce_queued (by simpa [undoes] using granted) queued pc
    | raised con pc =>
        have quiet : making before.server.pc = none := by rw [pc]; rfl
        have runs : before.server.pc ≠ .destroyed := by rw [pc]; intro impossible; cases impossible
        exact queued_turn (queued_same queued (neutral_incr _ con).standing (incr_lists _ con)) runs
          quiet rfl
    | read number world pc reads =>
        exact queued_same queued (neutral_readData reads).standing (readData_references reads).lists
    | stopped pc => exact stop_queued queued pc
    | destroyed pc => exact destroyServer_queued queued
    | userAccepted => exact absurd rfl accepts
    | userRead world reads =>
        exact queued_same queued (neutral_userRead reads).standing (userRead_references reads).lists
    | userDestroyed world destroys => exact userDestroy_queued queued destroys
    | arrived world arrives =>
        exact queued_same queued (neutral_arrive arrives).standing (arrive_references arrives).lists

theorem listening_queued (mServerId : Int) (number : Nat) :
    Queued (Server.listening mServerId number).world .ready [] := by
  constructor
  case placed =>
    intro con
    exact ⟨fun impossible => Bool.noConfusion impossible,
      fun impossible => absurd impossible (Nat.not_lt_zero con)⟩
  case ordered => exact List.Pairwise.nil
  case serving =>
    intro con member
    cases member
  case apart =>
    intro left member
    cases member
  case part => exact List.Sublist.refl []
  case arrival => exact List.Pairwise.nil
  case handed =>
    intro con member
    cases member
  case newest =>
    intro con infd makes
    cases makes
  case fresh =>
    intro con infd impossible
    cases impossible
  case whole =>
    intro _ con below
    exact absurd below (Nat.not_lt_zero con)
  case kept =>
    intro con member
    cases member

theorem accepts_in_order (mServerId : Int) (number : Nat) (desk : Desk)
    (run : GuardedRun step Supplied (.listening mServerId number) desk) : InOrder desk :=
  queued_inOrder (run.invariant
    (fun desk => Queued desk.server.world desk.server.pc desk.accepted)
    (fun _ _ _ queued supplied stepped => step_queued queued supplied stepped)
    (listening_queued mServerId number))

theorem second_arrival_waits : ∃ desk, GuardedRun step Supplied (.listening 1 3) desk ∧
    desk.accepted = [0] ∧ desk.server.world.mNewConnections.items = [2] ∧ InOrder desk := by
  obtain ⟨desk, run, tested⟩ := replayed step Supplied (.listening 1 3)
    (acceptOne 3 5 ++ acceptOne 3 6 ++ [.userAccept, .event 6 hungUp] ++ acceptOne 3 7)
    (fun desk => desk.accepted = [0] ∧ desk.server.world.mNewConnections.items = [2])
    (by decide +kernel)
  obtain ⟨out, waits⟩ := of_decide_eq_true tested
  exact ⟨desk, run, out, waits, accepts_in_order 1 3 desk run⟩

end Steps

end Libasock.AcceptOrder
