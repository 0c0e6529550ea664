import Libasock.ReferenceCounts
import Libasock.ServerWorker

/-!
The references of a server's connections. A reference is held by the worker for
an entry of `m_connections`, for an entry of `m_new_connections` and by the user
who accepted the connection; `surplus` is what the counter has beyond them. The
worker counts the second reference only after it has made the connection
visible, so between the unlock and the increment one is `pending`.
-/

namespace Libasock.ServerReferences
open ByteBlocks GuardedRuns NumberReuse ReturnCodes TsqueueModel ConnectionObjects WorkerWorld
  ReferenceCounts ServerWorker

/-- The worker serves its list until it stops; the stop path drops one reference per entry. -/
def registered (server : Server) : List ConRef :=
  match server.pc with
  | .stopped | .destroyed => []
  | _ => server.world.mConnections.items

def waiting (server : Server) : List ConRef := server.world.mNewConnections.items

def holders (server : Server) (con : ConRef) : Nat :=
  (registered server).count con + (waiting server).count con + server.world.held.count con

/-- The increment still to come for the connection of the current accept iteration. -/
def pending : Pc → ConRef → Nat
  | .announced con, other => if other = con then 1 else 0
  | _, _ => 0

/-- The reference of an object that is in no list yet. -/
def inHand : Pc → ConRef → Nat
  | .created con _, other => if other = con then 1 else 0
  | _, _ => 0

/-- The connection of the current accept iteration. -/
def underway : Pc → Option ConRef
  | .created con _ | .registered con _ | .announced con => some con
  | _ => none

def surplus (server : Server) (con : ConRef) : Int :=
  counter server.world con + pending server.pc con -
    (holders server con + inHand server.pc con)

structure Covered (server : Server) : Prop where
  placed : ∀ con, (server.world.objects con).isSome ↔ con < server.world.created
  freed : FreedAtZero server.world
  enough : ∀ con, 0 ≤ surplus server con
  single : ∀ con, underway server.pc = some con → counter server.world con = 1
  last : ∀ con infd, server.pc = .registered con infd →
    ∃ front, server.world.mConnections.items = front ++ [con]
  raised : server.raisedReleased = []

/-- No user destroys a connection that has been announced but not yet counted. -/
def NoEarlyDestroy (server : Server) (label : Label) : Prop :=
  ∀ con ∈ label.destroyed, server.pc ≠ .announced con

/-- The entries of `m_new_connections` that a close or the end of the server drops. -/
def forgotten (before after : Server) (label : Label) (con : ConRef) : Nat :=
  if (closedNumber before label).isSome || label.endsServer then
    (waiting before).count con - (waiting after).count con
  else 0

instance (server : Server) (label : Label) : Decidable (NoEarlyDestroy server label) :=
  inferInstanceAs (Decidable (∀ con ∈ label.destroyed, server.pc ≠ .announced con))

section Facts

variable {server : Server} {con : ConRef} (covered : Covered server)
include covered

theorem known_of_counter (counted : counter server.world con ≠ 0) : con < server.world.created := by
  obtain ⟨object, found⟩ := counted_object counted
  exact (covered.placed con).mp (by rw [found]; rfl)

theorem fresh_counter : counter server.world server.world.created = 0 := by
  rw [counter, unborn_absent covered.placed]

/-- Who has a reference that is not awaiting its increment finds it in the counter. -/
theorem held_counter (holds : 0 < holders server con) (counted : pending server.pc con = 0) :
    0 < counter server.world con := by
  have enough := covered.enough con
  unfold surplus at enough
  omega

theorem holder_known (holds : 0 < holders server con) : con < server.world.created := by
  by_cases counted : pending server.pc con = 0
  · exact known_of_counter covered (Int.ne_of_gt (held_counter covered holds counted))
  · have underway : underway server.pc = some con := by
      cases pc : server.pc <;> simp_all [pending, underway]
    exact known_of_counter covered (by rw [covered.single con underway]; decide)

end Facts

section Unchanged

variable {server after : Server}

theorem quiet_counts (con : ConRef) (isQuiet : quiet server.pc = true) :
    pending server.pc con = 0 ∧ inHand server.pc con = 0 ∧ underway server.pc = none ∧
      registered server = server.world.mConnections.items := by
  cases pc : server.pc <;> simp_all [quiet, pending, inHand, underway, registered]

/-- What a step between quiet program points has to establish. -/
theorem covered_quiet (isQuiet : quiet after.pc = true) (raised : after.raisedReleased = [])
    (placed : ∀ con, (after.world.objects con).isSome ↔ con < after.world.created)
    (freed : FreedAtZero after.world) (enough : ∀ con, 0 ≤ surplus after con) : Covered after := by
  refine ⟨placed, freed, enough, ?_, ?_, raised⟩
  · intro con underway
    rw [(quiet_counts con isQuiet).2.2.1] at underway
    cases underway
  · intro con infd pc
    rw [pc] at isQuiet
    cases isQuiet

theorem surplus_quiet (con : ConRef) (isQuiet : quiet server.pc = true) : surplus server con =
    counter server.world con - (server.world.mConnections.items.count con +
      server.world.mNewConnections.items.count con + server.world.held.count con : Nat) := by
  obtain ⟨noPending, noInHand, _, same⟩ := quiet_counts con isQuiet
  simp only [surplus, holders, waiting, noPending, noInHand, same]
  omega

theorem quiet_enough (covered : Covered server) (isQuiet : quiet server.pc = true) (con : ConRef) :
    (server.world.mConnections.items.count con : Int) ≤ counter server.world con := by
  have level := covered.enough con
  rw [surplus_quiet con isQuiet] at level
  omega

theorem same_quiet (after : Server) (covered : Covered server)
    (same : SameReferences server.world after.world)
    (raised : after.raisedReleased = server.raisedReleased)
    (before : quiet server.pc = true) (quietAfter : quiet after.pc = true) :
    Covered after ∧ ∀ con, surplus after con = surplus server con := by
  have kept : ∀ con, surplus after con = surplus server con := by
    intro con
    rw [surplus_quiet con before, surplus_quiet con quietAfter, same.counters, same.lists.connections,
      same.lists.new, same.lists.held]
  refine ⟨covered_quiet quietAfter (raised.trans covered.raised) ?_ (same.freed covered.freed) ?_, kept⟩
  · intro con
    rw [same.known, same.lists.created]
    exact covered.placed con
  · intro con
    rw [kept]
    exact covered.enough con

theorem same_place (covered : Covered server) (same : SameReferences server.world after.world)
    (raised : after.raisedReleased = server.raisedReleased) (pc : after.pc = server.pc) :
    Covered after ∧ ∀ con, surplus after con = surplus server con := by
  have kept : ∀ con, surplus after con = surplus server con := by
    intro con
    simp only [surplus, holders, registered, waiting, pc, same.counters, same.lists.connections,
      same.lists.new, same.lists.held]
  refine ⟨⟨?_, same.freed covered.freed, ?_, ?_, ?_, raised.trans covered.raised⟩, kept⟩
  · intro con
    rw [same.known, same.lists.created]
    exact covered.placed con
  · intro con
    rw [kept]
    exact covered.enough con
  · intro con underway
    rw [same.counters]
    rw [pc] at underway
    exact covered.single con underway
  · intro con infd registered
    rw [same.lists.connections]
    rw [pc] at registered
    exact covered.last con infd registered

end Unchanged

section Closing

variable {server : Server}

theorem closeNumber_covered (covered : Covered server) (closing : mayClose server.pc = true)
    (sockd : Nat) (peer : Bool) : Covered (closeNumber server sockd peer) ∧
      ∀ con, surplus (closeNumber server sockd peer) con = surplus server con +
        ((waiting server).count con - (waiting (closeNumber server sockd peer)).count con : Nat) := by
  have isQuiet := mayClose_quiet closing
  have kept : ∀ con, surplus (closeNumber server sockd peer) con = surplus server con +
      ((waiting server).count con -
        (waiting (closeNumber server sockd peer)).count con : Nat) := by
    intro con
    obtain ⟨_, _, fewer⟩ := forgetNew_lists server.world sockd con
    obtain ⟨counts, new, held, _, _⟩ := close_counts server.world con sockd
    rw [surplus_quiet con isQuiet, surplus_quiet con rfl]
    simp only [closeNumber, waiting, new, held]
    omega
  refine ⟨covered_quiet rfl covered.raised ?_ ?_ ?_, kept⟩
  · intro con
    obtain ⟨_, _, _, created, known⟩ := close_counts server.world con sockd
    simp only [closeNumber, created, known]
    exact covered.placed con
  · refine freed_close covered.freed fun con listed => ?_
    have positive := List.count_pos_iff.mpr listed
    have enough := covered.enough con
    rw [surplus_quiet con isQuiet] at enough
    omega
  · intro con
    rw [kept]
    have enough := covered.enough con
    omega

end Closing

section Accepting

variable {server after : Server} {con : ConRef} {infd : Descriptor}

/-- Undoing an iteration drops the only reference of its object. -/
theorem cleared_covered {world : World} (placed : ∀ con, (world.objects con).isSome ↔ con < world.created)
    (freed : FreedAtZero world) (single : counter world con = 1)
    (others : ∀ other, other ≠ con → counter world other -
      (world.mConnections.items.count other + world.mNewConnections.items.count other +
        world.held.count other : Nat) = surplus server other)
    (alone : world.mConnections.items.count con + world.mNewConnections.items.count con +
        world.held.count con = 0)
    (covered : Covered server) (level : surplus server con = 0) :
    Covered (clearAfterFailure server world con infd) ∧
      ∀ other, surplus (clearAfterFailure server world con infd) other = surplus server other := by
  obtain ⟨object, found⟩ := counted_object (by rw [single]; decide : counter world con ≠ 0)
  have lists := (destroy_lists world con).trans (close_lists _ (some infd))
  have kept : ∀ other,
      surplus (clearAfterFailure server world con infd) other = surplus server other := by
    intro other
    rw [surplus_quiet other rfl]
    simp only [clearAfterFailure, counter_close, lists.connections, lists.new, lists.held]
    rw [counter_destroy found]
    by_cases same : other = con
    · subst same
      simp only [if_true]
      omega
    · simp only [same, if_false, ← others other same]
      omega
  refine ⟨covered_quiet rfl covered.raised ?_ ?_ ?_, kept⟩
  · intro other
    simp only [clearAfterFailure, close_objects, destroy_isSome, lists.created]
    exact placed other
  · exact freed_congr (freed_destroy freed (by rw [single]; decide)) (close_objects _)
  · intro other
    rw [kept]
    exact covered.enough other

/-- The new object takes the next place, with one reference and in no list. -/
theorem added_facts {world : World} {con : Asock} (covered : Covered server)
    (isQuiet : quiet server.pc = true) (same : SameReferences server.world world)
    (counted : con.mRefCounter = 1) :
    world.created = server.world.created ∧ surplus server world.created = 0 ∧
    (∀ other, ((world.add con).objects other).isSome ↔ other < (world.add con).created) ∧
    FreedAtZero (world.add con) ∧ counter (world.add con) world.created = 1 ∧
    (∀ other, other ≠ world.created →
      counter (world.add con) other = counter server.world other) ∧
    server.world.mConnections.items.count world.created +
      server.world.mNewConnections.items.count world.created +
      server.world.held.count world.created = 0 := by
  have place : world.created = server.world.created := same.lists.created
  have nobody := fresh_counter covered
  have enough := covered.enough server.world.created
  have level := surplus_quiet server.world.created isQuiet
  refine ⟨place, ?_, ?_, freed_add (same.freed covered.freed) counted, ?_, ?_, ?_⟩
  · rw [place]
    omega
  · intro other
    have next : (world.add con).created = world.created + 1 := rfl
    rw [add_isSome, same.known, next, Bool.or_eq_true, decide_eq_true_eq, covered.placed, place]
    exact or_comm.trans Nat.lt_succ_iff_lt_or_eq.symm
  · rw [counter_add, if_pos rfl, counted]
  · intro other different
    rw [counter_add, if_neg different, same.counters]
  · rw [place]
    omega

theorem accept_covered {number : Nat} {peer : List Byte} {answers : AcceptAnswers}
    (covered : Covered server) (pc : server.pc = .accepting)
    (accepts : acceptStep server number peer answers = some after) :
    Covered after ∧ ∀ other, surplus after other = surplus server other := by
  have isQuiet : quiet server.pc = true := by rw [pc]; rfl
  obtain ⟨infd, world, acquires, rfl | ⟨con, arrived, rfl | ⟨_, rfl⟩⟩⟩ := accept_cases accepts
  · exact same_quiet _ covered
      ((acquire_references acquires).trans (close_references world (some infd))) rfl isQuiet rfl
  · have same := acquire_references acquires
    obtain ⟨place, level, placed, freed, single, others, alone⟩ :=
      added_facts covered isQuiet same arrived.counted
    have lists := same.lists
    have kept : ∀ other, surplus
        { server with world := world.add con, pc := .created world.created infd } other =
        surplus server other := by
      intro other
      have counts : counter (world.add con) other =
          counter server.world other + if other = world.created then 1 else 0 := by
        rw [counter_add, arrived.counted, same.counters]
        split
        · rename_i new
          rw [new, place, fresh_counter covered]
          rfl
        · exact (Int.add_zero _).symm
      have unlisted : holders { server with
          world := world.add con, pc := .created world.created infd } other =
          server.world.mConnections.items.count other +
            server.world.mNewConnections.items.count other + server.world.held.count other := by
        simp only [holders, registered, waiting, World.add, World.put, lists.connections, lists.new,
          lists.held]
      have hand : inHand (.created world.created infd) other =
          if other = world.created then 1 else 0 := rfl
      rw [surplus_quiet other isQuiet]
      simp only [surplus, counts, unlisted, hand, pending]
      split <;> omega
    refine ⟨⟨placed, freed, ?_, ?_, ?_, covered.raised⟩, kept⟩
    · intro other
      rw [kept]
      exact covered.enough other
    · intro other underway
      cases underway
      exact single
    · intro other infd impossible
      cases impossible
  · have same := acquire_references acquires
    obtain ⟨place, level, placed, freed, single, others, alone⟩ :=
      added_facts covered isQuiet same arrived.counted
    have lists := same.lists
    apply cleared_covered placed freed single _ _ covered level
    · intro other different
      rw [others other different, surplus_quiet other isQuiet]
      simp only [World.add, World.put, lists.connections, lists.new, lists.held]
    · simp only [World.add, World.put, lists.connections, lists.new, lists.held]
      exact alone

theorem register_covered (covered : Covered server) (pc : server.pc = .created con infd)
    (granted : Bool) : Covered (registerStep server con infd granted) ∧
      ∀ other, surplus (registerStep server con infd granted) other = surplus server other := by
  have single : counter server.world con = 1 := covered.single con (by rw [pc]; rfl)
  have hand : ∀ other, inHand server.pc other = if other = con then 1 else 0 := by
    intro other
    rw [pc]
    rfl
  have level : ∀ other, surplus server other = counter server.world other -
      (server.world.mConnections.items.count other +
        server.world.mNewConnections.items.count other + server.world.held.count other +
        (if other = con then 1 else 0) : Nat) := by
    intro other
    simp only [surplus, holders, registered, waiting, pc, pending, inHand]
    omega
  have alone : server.world.mConnections.items.count con +
      server.world.mNewConnections.items.count con + server.world.held.count con = 0 := by
    have enough := covered.enough con
    rw [level, single, if_pos rfl] at enough
    omega
  rcases register_cases server con infd granted with ⟨items, same⟩ | ⟨_, items, same⟩
  · rw [same]
    have kept : ∀ other, surplus { server with
        world := server.world.setConnections (server.world.mConnections.push con granted).2
        pc := .registered con infd } other = surplus server other := by
      intro other
      rw [level]
      simp only [surplus, holders, registered, waiting, pending, inHand, setConnections_items,
        setConnections_new, setConnections_held, counter_setConnections, items, count_pushed]
      omega
    refine ⟨⟨covered.placed, covered.freed, ?_, ?_, ?_, covered.raised⟩, kept⟩
    · intro other
      rw [kept]
      exact covered.enough other
    · intro other underway
      cases underway
      exact single
    · intro other _ same
      cases same
      exact ⟨_, items⟩
  · rw [same]
    refine cleared_covered (by exact covered.placed) (by exact covered.freed) (by exact single)
      ?_ ?_ covered ?_
    · intro other different
      rw [level, if_neg different]
      simp only [counter_setConnections, setConnections_items, setConnections_new,
        setConnections_held, items, Nat.add_zero]
    · simp only [setConnections_items, setConnections_new, setConnections_held, items, alone]
    · rw [level, single, if_pos rfl]
      omega

theorem announce_covered (covered : Covered server) (pc : server.pc = .registered con infd)
    (granted : Bool) : Covered (announceStep server con infd granted) ∧
      ∀ other, surplus (announceStep server con infd granted) other = surplus server other := by
  have single : counter server.world con = 1 := covered.single con (by rw [pc]; rfl)
  obtain ⟨front, last⟩ := covered.last con infd pc
  have level : ∀ other, surplus server other = counter server.world other -
      (front.count other + (if other = con then 1 else 0) +
        server.world.mNewConnections.items.count other + server.world.held.count other : Nat) := by
    intro other
    simp only [surplus, holders, registered, waiting, pc, pending, inHand, last, count_pushed]
    omega
  have alone : front.count con + server.world.mNewConnections.items.count con +
      server.world.held.count con = 0 := by
    have enough := covered.enough con
    rw [level, single, if_pos rfl] at enough
    omega
  rcases announce_cases server con infd granted with ⟨items, same⟩ | ⟨_, items, same⟩
  · rw [same]
    have kept : ∀ other, surplus { server with
        world := server.world.setNew (server.world.mNewConnections.push con granted).2
        pc := .announced con } other = surplus server other := by
      intro other
      rw [level]
      simp only [surplus, holders, registered, waiting, pending, inHand, setNew_items,
        setNew_connections, setNew_held, counter_setNew, items, last, count_pushed]
      omega
    refine ⟨⟨covered.placed, covered.freed, ?_, ?_, ?_, covered.raised⟩, kept⟩
    · intro other
      rw [kept]
      exact covered.enough other
    · intro other underway
      cases underway
      exact single
    · intro other _ impossible
      cases impossible
  · rw [same]
    have erased := erase_last last
    refine cleared_covered (by exact covered.placed) (by exact covered.freed) (by exact single)
      ?_ ?_ covered ?_
    · intro other different
      rw [level, if_neg different]
      simp only [counter_setConnections, counter_setNew, setConnections_items, setConnections_new,
        setConnections_held, setNew_items, setNew_held, items, erased, Nat.add_zero]
    · simp only [setConnections_items, setConnections_new, setConnections_held, setNew_items,
        setNew_held, items, erased, alone]
    · rw [level, single, if_pos rfl]
      omega

theorem raise_covered (covered : Covered server) (pc : server.pc = .announced con) :
    Covered (raiseStep server con) ∧
      ∀ other, surplus (raiseStep server con) other = surplus server other := by
  have single : counter server.world con = 1 := covered.single con (by rw [pc]; rfl)
  have positive : 0 < counter server.world con := by rw [single]; decide
  obtain ⟨object, found, alive, _⟩ := alive_counted covered.freed positive
  have lists := incr_lists server.world con
  have kept : ∀ other, surplus (raiseStep server con) other = surplus server other := by
    intro other
    rw [surplus_quiet other rfl]
    simp only [raiseStep, counter_incr found, lists.connections, lists.new, lists.held, surplus,
      holders, registered, waiting, pc, pending, inHand]
    split <;> omega
  have raised : (raiseStep server con).raisedReleased = [] := by
    simp [raiseStep, found, alive, covered.raised]
  refine ⟨covered_quiet rfl raised ?_ (freed_incr covered.freed positive) ?_, kept⟩
  · intro other
    simp only [raiseStep, incr_isSome, lists.created]
    exact covered.placed other
  · intro other
    rw [kept]
    exact covered.enough other

end Accepting

section Ending

variable {server : Server}

theorem stop_covered (covered : Covered server) (pc : server.pc = .ready) :
    Covered (stopStep server) ∧ ∀ con, surplus (stopStep server) con = surplus server con := by
  have isQuiet : quiet server.pc = true := by rw [pc]; rfl
  have known : ∀ con ∈ server.world.mConnections.items, (server.world.objects con).isSome := by
    intro con member
    rw [covered.placed]
    apply holder_known covered
    have listed := List.count_pos_iff.mpr member
    simp only [holders, registered, pc]
    omega
  have lists := (destroyAll_lists server.world server.world.mConnections.items).trans
    (close_lists _ (some server.mServerSocket))
  have kept : ∀ con, surplus (stopStep server) con = surplus server con := by
    intro con
    rw [surplus_quiet con isQuiet]
    simp only [stopStep, surplus, holders, registered, waiting, pending, inHand, counter_close,
      lists.new, lists.held, List.count_nil]
    rw [destroyAll_counter _ known]
    omega
  refine ⟨⟨?_, ?_, ?_, ?_, ?_, covered.raised⟩, kept⟩
  · intro con
    simp only [stopStep, close_objects, destroyAll_isSome, lists.created]
    exact covered.placed con
  · refine freed_congr (freed_destroyAll _ covered.freed ?_) (close_objects _)
    intro con
    have enough := covered.enough con
    rw [surplus_quiet con isQuiet] at enough
    omega
  · intro con
    rw [kept]
    exact covered.enough con
  · intro con underway
    cases underway
  · intro con infd impossible
    cases impossible

theorem destroyServer_covered (covered : Covered server) (pc : server.pc = .stopped) :
    Covered (destroyServerStep server) ∧ ∀ con, surplus (destroyServerStep server) con =
      surplus server con + ((waiting server).count con : Nat) := by
  have kept : ∀ con, surplus (destroyServerStep server) con =
      surplus server con + ((waiting server).count con : Nat) := by
    intro con
    simp only [surplus, holders, registered, waiting, destroyServerStep, pc, pending, inHand,
      counter_setConnections, counter_setNew, setNew_items, setNew_held, setConnections_held,
      Connections.clear, List.count_nil]
    omega
  refine ⟨⟨covered.placed, covered.freed, ?_, ?_, ?_, covered.raised⟩, kept⟩
  · intro con
    have enough := covered.enough con
    rw [kept]
    omega
  · intro con underway
    cases underway
  · intro con infd impossible
    cases impossible

end Ending

section UserSteps

variable {server : Server}

theorem userAccept_covered (covered : Covered server) : Covered (userAcceptStep server) ∧
    ∀ con, surplus (userAcceptStep server) con = surplus server con := by
  unfold userAcceptStep
  split
  · exact ⟨covered, fun _ => rfl⟩
  · rename_i first rest items
    have kept : ∀ con, surplus { server with
        world := (server.world.setNew (server.world.mNewConnections.erase 0)).setHeld
          (first :: server.world.held) } con = surplus server con := by
      intro con
      simp only [surplus, holders, registered, waiting, Connections.erase, items,
        List.eraseIdx_cons_zero, List.count_cons, counter_setHeld, counter_setNew,
        setHeld_connections, setHeld_new, setHeld_items, setNew_items, setNew_connections]
      omega
    refine ⟨⟨covered.placed, covered.freed, ?_, covered.single, covered.last, covered.raised⟩, kept⟩
    intro con
    rw [kept]
    exact covered.enough con

/-- The user cannot hold a connection that no thread has been shown. -/
theorem underway_unheld {con : ConRef} (covered : Covered server)
    (isUnderway : underway server.pc = some con) (early : server.pc ≠ .announced con) :
    con ∉ server.world.held := by
  intro holds
  have listed := List.count_pos_iff.mpr holds
  have single := covered.single con isUnderway
  have enough := covered.enough con
  cases pc : server.pc with
  | created other infd =>
      rw [pc] at isUnderway
      cases isUnderway
      simp only [surplus, holders, pc, pending, inHand, single, if_true] at enough
      omega
  | registered other infd =>
      have last := covered.last
      rw [pc] at isUnderway
      cases isUnderway
      obtain ⟨front, items⟩ := last con infd pc
      have member : 0 < server.world.mConnections.items.count con := by
        rw [items]
        simp
      simp only [surplus, holders, registered, pc, pending, inHand, single] at enough
      omega
  | announced other =>
      rw [pc] at isUnderway early
      cases isUnderway
      exact early rfl
  | ready | accepting | reading _ | stopped | destroyed =>
      rw [pc] at isUnderway
      cases isUnderway

theorem userDestroy_covered {con : ConRef} {world : World} (covered : Covered server)
    (early : server.pc ≠ .announced con) (destroys : server.world.userDestroy con = some world) :
    Covered { server with world := world } ∧
      ∀ other, surplus { server with world := world } other = surplus server other := by
  obtain ⟨holds, rfl⟩ := userDestroy_cases _ destroys
  have listed := List.count_pos_iff.mpr holds
  have counted : pending server.pc con = 0 := by
    cases pc : server.pc with
    | announced other =>
        have different : con ≠ other := by
          intro same
          exact early (by rw [pc, same])
        simp [pending, different]
    | _ => rfl
  have positive : 0 < counter server.world con := by
    apply held_counter covered _ counted
    simp only [holders]
    omega
  obtain ⟨object, found⟩ := counted_object (Int.ne_of_gt positive)
  have lists := destroy_lists (server.world.setHeld (server.world.held.erase con)) con
  have counts : ∀ other, counter
      ((server.world.setHeld (server.world.held.erase con)).destroyAsock con) other =
      counter server.world other - if other = con then 1 else 0 := fun other => counter_destroy found
  have kept : ∀ other, surplus { server with
      world := (server.world.setHeld (server.world.held.erase con)).destroyAsock con } other =
      surplus server other := by
    intro other
    simp only [surplus, holders, registered, waiting, counts, lists.connections, lists.new,
      lists.held, setHeld_connections, setHeld_new, setHeld_items, List.count_erase, beq_iff_eq]
    by_cases same : other = con
    · simp only [same, if_true]
      omega
    · simp only [same, Ne.symm same, if_false]
      omega
  refine ⟨⟨?_, ?_, ?_, ?_, ?_, covered.raised⟩, kept⟩
  · intro other
    simp only [destroy_isSome, lists.created]
    exact covered.placed other
  · exact freed_destroy (freed_congr covered.freed rfl) positive
  · intro other
    rw [kept]
    exact covered.enough other
  · intro other isUnderway
    have different : other ≠ con := by
      intro same
      subst same
      exact underway_unheld covered isUnderway early holds
    rw [counts, if_neg different, Int.sub_zero]
    exact covered.single other isUnderway
  · intro other infd registered
    rw [lists.connections]
    exact covered.last other infd registered

end UserSteps

section Runs

variable {server after : Server} {label : Label}

/-- One step keeps the references covered; only entries of `m_new_connections` that
are neither handed out nor counted off change what is left over. -/
theorem step_covered (covered : Covered server) (early : NoEarlyDestroy server label)
    (stepped : step server label = some after) : Covered after ∧
      ∀ con, surplus after con = surplus server con + (forgotten server after label con : Nat) := by
  have kept : ∀ {label : Label} {next : Server},
      ((closedNumber server label).isSome || label.endsServer) = false →
      (Covered next ∧ ∀ con, surplus next con = surplus server con) → Covered next ∧
        ∀ con, surplus next con = surplus server con + (forgotten server next label con : Nat) := by
    intro label next harmless result
    refine ⟨result.1, fun con => ?_⟩
    rw [result.2, forgotten, harmless]
    exact (Int.add_zero _).symm
  cases step_moved stepped with
  | closed number peer closing asked _ =>
      obtain ⟨result, level⟩ := closeNumber_covered covered closing number peer
      refine ⟨result, fun con => ?_⟩
      rw [level, forgotten, asked]
      rfl
  | turned pc before isQuiet =>
      obtain ⟨result, level⟩ := same_quiet { server with pc := pc } covered
        (same_objects ⟨rfl, rfl, rfl, rfl⟩ rfl) rfl before isQuiet
      refine ⟨result, fun con => ?_⟩
      rw [level]
      simp [forgotten, waiting]
  | accepted pc accepts => exact kept rfl (accept_covered covered pc accepts)
  | registered con infd pc => exact kept rfl (register_covered covered pc _)
  | announced con infd pc => exact kept rfl (announce_covered covered pc _)
  | raised con pc => exact kept rfl (raise_covered covered pc)
  | read number world pc reads =>
      exact kept rfl (same_place covered (readData_references reads) rfl rfl)
  | stopped pc => exact kept rfl (stop_covered covered pc)
  | destroyed pc =>
      obtain ⟨result, level⟩ := destroyServer_covered covered pc
      refine ⟨result, fun con => ?_⟩
      rw [level]
      simp [forgotten, Label.endsServer, waiting, destroyServerStep, Connections.clear]
  | userAccepted => exact kept rfl (userAccept_covered covered)
  | userRead world reads =>
      exact kept rfl (same_place covered (userRead_references reads) rfl rfl)
  | userDestroyed world destroys =>
      exact kept rfl (userDestroy_covered covered (early _ rfl) destroys)
  | arrived world arrives =>
      exact kept rfl (same_place covered (arrive_references arrives) rfl rfl)

theorem listening_covered (mServerId : Int) (number : Nat) :
    Covered (.listening mServerId number) ∧
      ∀ con, surplus (.listening mServerId number) con = 0 := by
  have level : ∀ con, surplus (.listening mServerId number) con = 0 := fun con => rfl
  refine ⟨covered_quiet rfl rfl ?_ ?_ ?_, level⟩
  · intro con
    simp [Server.listening]
  · intro con object found
    cases found
  · intro con
    exact Int.le_of_eq (level con).symm

end Runs

section Results

/-- No connection is freed while the worker has it registered, and none has been
raised after its release. -/
structure SafeRegistrations (server : Server) : Prop where
  alive : ∀ con ∈ registered server, ∃ object, server.world.objects con = some object ∧
    object.released = false ∧ 0 < object.con.mRefCounter
  raised : server.raisedReleased = []

theorem registered_counter {server : Server} {con : ConRef} (covered : Covered server)
    (member : con ∈ registered server) : 0 < counter server.world con := by
  have listed := List.count_pos_iff.mpr member
  by_cases counted : pending server.pc con = 0
  · apply held_counter covered _ counted
    simp only [holders]
    omega
  · have isUnderway : underway server.pc = some con := by
      cases pc : server.pc <;> simp_all [pending, underway]
    rw [covered.single con isUnderway]
    decide

theorem covered_safe {server : Server} (covered : Covered server) : SafeRegistrations server := by
  refine ⟨?_, covered.raised⟩
  intro con member
  exact alive_counted covered.freed (registered_counter covered member)

theorem guarded_covered {mServerId : Int} {number : Nat} {server : Server}
    (run : GuardedRun step NoEarlyDestroy (.listening mServerId number) server) : Covered server :=
  run.invariant Covered (fun _ _ _ covered early stepped => (step_covered covered early stepped).1)
    (listening_covered mServerId number).1

-- Every other order of accept iterations, accepts, destroys and closes is safe.
theorem registered_never_released (mServerId : Int) (number : Nat) (server : Server)
    (run : GuardedRun step NoEarlyDestroy (.listening mServerId number) server) :
    SafeRegistrations server := covered_safe (guarded_covered run)

def served : AcceptAnswers := ⟨⟨true, ⟨true, true, zeroed⟩, ⟨true, true, zeroed⟩⟩, true⟩

def readable : EventMask := ⟨true, false, false, false, false⟩

/-- An accept iteration up to the unlock of `m_new_connections_mutex`. -/
def announceOne (listener number : Nat) : List Label :=
  [.event listener readable, .accept number [] served, .register true, .announce true]

/-- A whole accept iteration and the end of the accept loop. -/
def acceptOne (listener number : Nat) : List Label :=
  announceOne listener number ++ [.raise, .acceptEnd]

-- A user who accepts and destroys inside the window takes the last reference.
theorem early_destroy_releases :
    ∃ server, Run step (.listening 1 3) server ∧ ¬ SafeRegistrations server := by
  obtain ⟨server, run, tested⟩ := replayed step (fun _ _ => True) (.listening 1 3)
    (announceOne 3 5 ++ [.userAccept, .userDestroy 0, .raise])
    (fun server => server.raisedReleased = [0]) (by decide +kernel)
  refine ⟨server, run, fun safe => ?_⟩
  have raised := of_decide_eq_true tested
  rw [safe.raised] at raised
  cases raised

theorem accepted_destroyed_safe : ∃ server, Run step (.listening 1 3) server ∧
    server.world.held = [] ∧ registered server = [0] ∧ SafeRegistrations server := by
  obtain ⟨server, run, tested⟩ := replayed step NoEarlyDestroy (.listening 1 3)
    (acceptOne 3 5 ++ [.userAccept, .userDestroy 0])
    (fun server => server.world.held = [] ∧ registered server = [0]) (by decide +kernel)
  obtain ⟨unheld, listed⟩ := of_decide_eq_true tested
  exact ⟨server, run.weaken fun _ _ _ => trivial, unheld, listed,
    registered_never_released 1 3 server run⟩

end Results

section Exactness

variable {server after : Server} {label : Label}

/-- No close hits the number of a connection still waiting to be accepted, and the
server is destroyed only when no connection is waiting. -/
def NothingForgotten (server : Server) (label : Label) : Prop :=
  (∀ number ∈ closedNumber server label, ∀ con ∈ waiting server,
    server.world.hasSockDesc number con = false) ∧
  (label.endsServer = true → waiting server = [])

def Accounted (server : Server) (label : Label) : Prop :=
  NoEarlyDestroy server label ∧ NothingForgotten server label

instance (server : Server) (label : Label) : Decidable (Accounted server label) :=
  inferInstanceAs (Decidable (_ ∧ (∀ number ∈ closedNumber server label, ∀ con ∈ waiting server,
    server.world.hasSockDesc number con = false) ∧ (_ → _)))

/-- Each counter is the number of holders, and a connection without one has been freed. -/
structure ExactReferences (server : Server) : Prop where
  counted : ∀ con object, server.world.objects con = some object →
    object.con.mRefCounter = holders server con
  released : ∀ con object, server.world.objects con = some object → holders server con = 0 →
    object.released = true ∧ object.con.mRefCounter = 0

theorem close_forgets_none {sockd : Nat} (peer : Bool)
    (unused : ∀ con ∈ waiting server, server.world.hasSockDesc sockd con = false) :
    waiting (closeNumber server sockd peer) = waiting server := by
  obtain ⟨_, new, _⟩ := close_counts server.world 0 sockd
  simp only [waiting, closeNumber, new, forgetNew_unused unused]

theorem forgotten_none (accounted : NothingForgotten server label)
    (stepped : step server label = some after) (con : ConRef) :
    forgotten server after label con = 0 := by
  cases step_moved stepped with
  | closed number peer closing asked _ =>
      have same := close_forgets_none peer (accounted.1 number asked)
      simp [forgotten, same]
  | destroyed pc => simp [forgotten, accounted.2 rfl]
  | turned | accepted | registered | announced | raised | read | stopped | userAccepted | userRead
  | userDestroyed | arrived => simp [forgotten, waiting, closedNumber, Label.endsServer]

theorem step_level (covered : Covered server) (accounted : Accounted server label)
    (stepped : step server label = some after) (level : ∀ con, surplus server con = 0) :
    Covered after ∧ ∀ con, surplus after con = 0 := by
  obtain ⟨result, moved⟩ := step_covered covered accounted.1 stepped
  refine ⟨result, fun con => ?_⟩
  rw [moved, level, forgotten_none accounted.2 stepped]
  rfl

theorem level_exact (covered : Covered server) (level : ∀ con, surplus server con = 0)
    (complete : underway server.pc = none) : ExactReferences server := by
  have counts : ∀ con object, server.world.objects con = some object →
      object.con.mRefCounter = holders server con := by
    intro con object found
    have even := level con
    have between : pending server.pc con = 0 ∧ inHand server.pc con = 0 := by
      cases pc : server.pc <;> simp_all [underway, pending, inHand]
    rw [surplus, between.1, between.2, counter_some found] at even
    omega
  refine ⟨counts, ?_⟩
  intro con object found unheld
  have zero : object.con.mRefCounter = 0 := by rw [counts con object found, unheld]; rfl
  exact ⟨(covered.freed con object found).freed.mpr zero, zero⟩

-- The states between complete steps are those without an accept iteration under way.
theorem references_exact (mServerId : Int) (number : Nat) (server : Server)
    (run : GuardedRun step Accounted (.listening mServerId number) server)
    (complete : underway server.pc = none) : ExactReferences server := by
  obtain ⟨covered, level⟩ := run.invariant_with Covered (fun server => ∀ con, surplus server con = 0)
    (fun _ _ _ covered accounted stepped => (step_covered covered accounted.1 stepped).1)
    (fun _ _ _ covered level accounted stepped => (step_level covered accounted stepped level).2)
    (listening_covered mServerId number).1 (listening_covered mServerId number).2
  exact level_exact covered level complete

def hungUp : EventMask := ⟨true, false, false, false, true⟩

/-- A counter that no holder stands for. -/
def leaks (server : Server) (con : ConRef) : Bool :=
  (server.world.objects con).any fun object =>
    object.con.mRefCounter = 1 && holders server con = 0

theorem leaks_inexact {con : ConRef} (leaked : leaks server con = true) :
    ¬ ExactReferences server := by
  intro exactly
  cases found : server.world.objects con with
  | none => simp [leaks, found] at leaked
  | some object =>
      have counted := exactly.counted con object found
      simp only [leaks, found, Option.any_some, Bool.and_eq_true, decide_eq_true_eq] at leaked
      omega

-- A connection whose peer leaves before it is accepted, and one still waiting at the end.
theorem unaccepted_connections_leak :
    (∃ server, Run step (.listening 1 3) server ∧ underway server.pc = none ∧
      ¬ ExactReferences server ∧ server.pc = .ready) ∧
    (∃ server, Run step (.listening 1 3) server ∧ underway server.pc = none ∧
      ¬ ExactReferences server ∧ server.pc = .destroyed) := by
  constructor
  · obtain ⟨server, run, tested⟩ := replayed step (fun _ _ => True) (.listening 1 3)
      (acceptOne 3 5 ++ [.event 5 hungUp])
      (fun server => leaks server 0 ∧ server.pc = .ready) (by decide +kernel)
    obtain ⟨leaked, pc⟩ := of_decide_eq_true tested
    exact ⟨server, run, by rw [pc]; rfl, leaks_inexact leaked, pc⟩
  · obtain ⟨server, run, tested⟩ := replayed step (fun _ _ => True) (.listening 1 3)
      (acceptOne 3 5 ++ [.stop, .destroyServer])
      (fun server => leaks server 0 ∧ server.pc = .destroyed) (by decide +kernel)
    obtain ⟨leaked, pc⟩ := of_decide_eq_true tested
    exact ⟨server, run, by rw [pc]; rfl, leaks_inexact leaked, pc⟩

theorem accepted_connection_released : ∃ server, Run step (.listening 1 3) server ∧
    server.world.created = 1 ∧ holders server 0 = 0 ∧ ExactReferences server := by
  obtain ⟨server, run, tested⟩ := replayed step Accounted (.listening 1 3)
    (acceptOne 3 5 ++ [.userAccept, .event 5 hungUp, .userDestroy 0])
    (fun server => server.world.created = 1 ∧ holders server 0 = 0 ∧ underway server.pc = none)
    (by decide +kernel)
  obtain ⟨created, unheld, complete⟩ := of_decide_eq_true tested
  exact ⟨server, run.weaken fun _ _ _ => trivial, created, unheld,
    references_exact 1 3 server run complete⟩

end Exactness

end Libasock.ServerReferences
