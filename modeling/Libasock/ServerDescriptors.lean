import Libasock.RegisteredConnections
import Libasock.ServerReferences

/-!
Descriptors in a running server. While the server runs, the open sockets other
than the one it listens on are those of its registered connections and of the
connection an accept iteration has just made, so an event for a number concerns
the connection the lookup finds. A close that comes too late is the one thing
that breaks this: it hits whoever has been given the number since.
-/

namespace Libasock.ServerDescriptors
open ByteBlocks GuardedRuns NumberReuse ReturnCodes TsqueueModel ConnectionObjects WorkerWorld
  ReferenceCounts DescriptorOwnership SocketContents RegisteredConnections ServerWorker
  ServerReferences

def running : Pc → Bool
  | .stopped | .destroyed => false
  | _ => true

theorem running_before {server after : Server} {label : Label}
    (stepped : step server label = some after)
    (runs : running after.pc = true) : running server.pc = true := by
  rcases step_sides stepped with ⟨_, used⟩ | ⟨_, worked⟩
  · rcases user_pc used with same | ended
    · rwa [same] at runs
    · rw [ended] at runs
      cases runs
  · cases pc : server.pc with
    | stopped => cases label <;> simp [workerStep, pc] at worked
    | destroyed => cases label <;> simp [workerStep, pc] at worked
    | _ => rfl

def listeningSocket (server : Server) : Option Descriptor :=
  if running server.pc then some server.mServerSocket else none

/-- The connection made but not pushed yet. -/
def unregistered : Pc → Option ConRef
  | .created con _ => some con
  | _ => none

/-- The connection that a failure of the accept iteration would clear away. -/
def making : Pc → Option (ConRef × Descriptor)
  | .created con infd | .registered con infd => some (con, infd)
  | _ => none

structure Routed (server : Server) : Prop where
  roster : Roster server.world (listeningSocket server)
  making : ∀ con infd, making server.pc = some (con, infd) → Serving server.world con infd
  placed : running server.pc = true → ∀ con fd, assigned server.world none (some con) = some fd →
    server.world.table.opened fd.number = some fd.acquisition →
    con ∈ server.world.mConnections.items ∨ unregistered server.pc = some con

/-- The worker's users close no number late. -/
def NoStaleClose (server : Server) (label : Label) : Prop :=
  ∀ con ∈ label.destroyed, StaleFree server.world con

section Frames

variable {server after : Server}

theorem quiet_running {pc : Pc} (isQuiet : quiet pc = true) :
    running pc = true ∧ making pc = none ∧ unregistered pc = none := by
  cases pc <;> simp_all [quiet, running, making, unregistered]

theorem all_live (covered : Covered server) (routed : Routed server)
    (runs : running server.pc = true) : AllLive server.world := by
  intro con member
  obtain ⟨fd, serving⟩ := routed.roster.serving con member
  apply serving_live serving covered.freed
  apply registered_counter covered
  cases pc : server.pc <;> simp_all [registered, running]

/-- What a step to a program point with no connection in the making has to establish. -/
theorem routed_frame (routed : Routed server)
    (roster : Roster after.world (listeningSocket after))
    (same : view standing after.world = view standing server.world)
    (keeps : Keeps server.world after.world) (shrinks : Shrinks server.world after.world)
    (items : after.world.mConnections.items = server.world.mConnections.items)
    (pcs : after.pc = server.pc ∨ (ServerDescriptors.making after.pc = none ∧
      unregistered server.pc = none ∧ (running after.pc = true → running server.pc = true))) :
    Routed after := by
  refine ⟨roster, ?_, ?_⟩
  · intro con infd makes
    rcases pcs with pc | ⟨nothing, _⟩
    · rw [pc] at makes
      exact serving_view (routed.making con infd makes) (congrFun same con)
    · rw [nothing] at makes
      cases makes
  · intro runs con fd remembers isOpen
    rw [keeps.assigned] at remembers
    have wasOpen := shrinks fd.number fd.acquisition isOpen
    rw [items]
    rcases pcs with pc | ⟨_, pushed, ran⟩
    · rw [pc] at runs ⊢
      exact routed.placed runs con fd remembers wasOpen
    · refine .inl ((routed.placed (ran runs) con fd remembers wasOpen).resolve_right ?_)
      rw [pushed]
      intro impossible
      cases impossible

theorem routed_neutral (routed : Routed server) (neutral : Neutral server.world after.world)
    (items : after.world.mConnections.items = server.world.mConnections.items)
    (listening : listeningSocket after = listeningSocket server)
    (pcs : after.pc = server.pc ∨ (ServerDescriptors.making after.pc = none ∧
      unregistered server.pc = none ∧ (running after.pc = true → running server.pc = true))) :
    Routed after :=
  routed_frame routed (listening ▸ roster_neutral routed.roster neutral items) neutral.standing
    neutral.keeps (shrinks_table neutral.table) items pcs

end Frames

section Closing

variable {server : Server}

theorem closeNumber_routed (covered : Covered server) (routed : Routed server)
    (closing : mayClose server.pc = true) (number : Nat) (peer : Bool) :
    Routed (closeNumber server number peer) := by
  obtain ⟨runs, _, pushed⟩ := quiet_running (mayClose_quiet closing)
  have alive := all_live covered routed runs
  have roster := routed.roster
  rw [listeningSocket, if_pos runs] at roster
  refine ⟨roster_close roster alive number, fun con infd makes => ?_, ?_⟩
  · cases makes
  intro _ con fd remembers isOpen
  have keeps := close_keeps server.world number
  simp only [closeNumber] at remembers isOpen ⊢
  rw [keeps.assigned] at remembers
  have wasOpen := close_connection_shrinks server.world number fd.number fd.acquisition isOpen
  have listed := (routed.placed runs con fd remembers wasOpen).resolve_right (by
    rw [pushed]
    intro impossible
    cases impossible)
  exact .inl (close_stays listed remembers (by rw [isOpen]; intro impossible; cases impossible))

theorem stop_routed (covered : Covered server) (routed : Routed server)
    (pc : server.pc = .ready) : Routed (stopStep server) := by
  have runs : running server.pc = true := by rw [pc]; rfl
  have roster := routed.roster
  rw [listeningSocket, if_pos runs] at roster
  have owned := destroyAll_invariant (fun world => OwnedWorld world (some server.mServerSocket))
    server.world.mConnections.items roster.single (roster_unfailed roster) covered.freed
    (quiet_enough covered (by rw [pc]; rfl))
    (fun _ _ _ owned found isLive => owned_destroy owned found fun _ => .inl isLive) roster.owned
  have same : view standing (stopStep server).world = view standing server.world := by
    simp only [stopStep]
    rw [view_objects (close_objects _), view_destroyAll standing_uncounted]
  have items : (stopStep server).world.mConnections.items =
      server.world.mConnections.items :=
    congrArg Connections.items ((destroyAll_lists server.world _).trans
      (close_lists _ (some server.mServerSocket))).connections
  refine ⟨roster_frame roster (owned_unlisten owned) same items, ?_, ?_⟩
  · intro con infd makes
    cases makes
  · intro impossible
    cases impossible

theorem destroyServer_routed (routed : Routed server) (pc : server.pc = .stopped) :
    Routed (destroyServerStep server) := by
  have owned := routed.roster.owned
  rw [listeningSocket, pc] at owned
  refine ⟨⟨owned_keeps owned (keeps_objects rfl) rfl, List.nodup_nil, ?_⟩, ?_, ?_⟩
  · intro con member
    cases member
  · intro con infd makes
    cases makes
  · intro impossible
    cases impossible

end Closing

section Accepting

variable {server after : Server} {con : ConRef} {infd : Descriptor}

/-- Undoing an iteration: the connection closes its descriptor, the second close hits nothing. -/
theorem cleared_routed {world : World} (roster : Roster world (some server.mServerSocket))
    (serving : Serving world con infd) (freed : FreedAtZero world)
    (single : counter world con = 1)
    (placed : ∀ other fd, assigned world none (some other) = some fd →
      world.table.opened fd.number = some fd.acquisition →
      other ∈ world.mConnections.items ∨ other = con) :
    Routed (clearAfterFailure server world con infd) := by
  have isLive := serving_live serving freed (by rw [single]; decide)
  obtain ⟨object, found, remembers, _⟩ := serving_object serving
  have dropped := owned_destroy roster.owned found fun _ => .inl isLive
  have last : object.con.mRefCounter = 1 := by rw [← counter_some found, single]
  have shut : (world.destroyAsock con).table.opened infd.number = none := by
    obtain ⟨_, ⟨more, _⟩ | ⟨_, _, table⟩⟩ := destroy_effect found
    · exact absurd last more
    · rw [table, remembers]
      exact close_shut world infd
  have closed : OwnedWorld ((world.destroyAsock con).close (some infd))
      (some server.mServerSocket) := Owned.close_unused dropped shut
  have same : view standing ((world.destroyAsock con).close (some infd)) =
      view standing world := by
    rw [view_objects (close_objects _), view_destroy standing_uncounted]
  have items : ((world.destroyAsock con).close (some infd)).mConnections.items =
      world.mConnections.items :=
    congrArg Connections.items ((destroy_lists world con).trans
      (close_lists _ (some infd))).connections
  have keeps : Keeps world ((world.destroyAsock con).close (some infd)) :=
    (destroy_effect found).1.trans (keeps_objects (close_objects _))
  have shrinks := (destroy_shrinks world con).trans (close_shrinks _ (some infd))
  refine ⟨roster_frame roster closed same items, ?_, ?_⟩
  · intro other fd makes
    cases makes
  · intro _ other fd remembersOther isOpen
    simp only [clearAfterFailure] at remembersOther isOpen ⊢
    rw [keeps.assigned] at remembersOther
    rcases placed other fd remembersOther (shrinks _ _ isOpen) with listed | rfl
    · exact .inl (items ▸ listed)
    · rw [assigned_some found remembers, Option.some.injEq] at remembersOther
      subst remembersOther
      rw [close_shut] at isOpen
      cases isOpen

theorem created_routed {number : Nat} {world : World} {made : Asock} (covered : Covered server)
    (routed : Routed server) (pc : server.pc = .accepting)
    (acquires : server.world.acquire number = some (infd, world)) (arrived : Arrived made infd) :
    Routed { server with world := world.add made, pc := .created world.created infd } := by
  have runs : running server.pc = true := by rw [pc]; rfl
  have roster := routed.roster
  rw [listeningSocket, if_pos runs] at roster
  obtain ⟨objects, table, _⟩ := acquire_effect acquires
  obtain ⟨_, rfl, opened⟩ := acquire_shape table
  have lists := (acquire_references acquires).lists
  have unborn : ∀ {other}, other ∈ server.world.mConnections.items → other ≠ world.created := by
    rintro _ member rfl
    rw [lists.created] at member
    have born := registered_counter covered (by rw [registered, pc]; exact member)
    rw [fresh_counter covered] at born
    exact absurd born (by decide)
  have items : (world.add made).mConnections = server.world.mConnections := lists.connections
  refine ⟨⟨owned_add acquires arrived.descriptor roster.owned, ?_, ?_⟩, ?_, ?_⟩
  · rw [items]
    exact roster.single
  · intro other member
    simp only [items] at member
    obtain ⟨fd, serving⟩ := roster.serving other member
    refine ⟨fd, serving_view serving ?_⟩
    rw [added_view made (unborn member), view_objects objects]
  · intro other fd makes
    cases makes
    exact added_serving made arrived.descriptor (by rw [arrived.established]; decide)
  · intro _ other fd remembers isOpen
    by_cases hit : other = world.created
    · exact .inr (congrArg some hit.symm)
    · simp only [items]
      have keeps : Keeps server.world world := keeps_objects objects
      rw [(added_owners world arrived.descriptor).1, Function.update_of_ne (by simpa using hit),
        keeps.assigned] at remembers
      have known := roster.owned.known (some other) fd remembers
      have wasOpen : server.world.table.opened fd.number = some fd.acquisition := by
        simp only [World.add, World.put, opened] at isOpen
        by_cases same : fd.number = number
        · rw [same, Function.update_self, Option.some.injEq] at isOpen
          rw [isOpen] at known
          exact absurd known (Nat.lt_irrefl _)
        · rwa [Function.update_of_ne same] at isOpen
      exact .inl ((routed.placed runs other fd remembers wasOpen).resolve_right (by
        rw [pc]
        intro impossible
        cases impossible))

theorem accept_routed {number : Nat} {peer : List Byte} {answers : AcceptAnswers}
    (covered : Covered server) (routed : Routed server) (pc : server.pc = .accepting)
    (accepts : acceptStep server number peer answers = some after) : Routed after := by
  have runs : running server.pc = true := by rw [pc]; rfl
  have isQuiet : quiet server.pc = true := by rw [pc]; rfl
  have roster := routed.roster
  rw [listeningSocket, if_pos runs] at roster
  obtain ⟨infd, world, acquires, rfl | ⟨made, arrived, rfl | ⟨_, rfl⟩⟩⟩ := accept_cases accepts
  · have objects : (world.close (some infd)).objects = server.world.objects :=
      (close_objects (some infd)).trans (acquire_effect acquires).1
    have items : (world.close (some infd)).mConnections.items =
        server.world.mConnections.items :=
      congrArg Connections.items
        ((acquire_references acquires).lists.trans (close_lists world (some infd))).connections
    exact routed_frame routed (roster_frame roster (owned_acquire_close acquires roster.owned)
      (view_objects objects) items) (view_objects objects) (keeps_objects objects)
      (acquire_close_shrinks acquires) items
      (.inr ⟨rfl, (quiet_running isQuiet).2.2, fun _ => runs⟩)
  · exact created_routed covered routed pc acquires arrived
  · obtain ⟨place, _, _, freed, single, _, alone⟩ :=
      added_facts covered isQuiet (acquire_references acquires) arrived.counted
    have grown := created_routed covered routed pc acquires arrived
    refine cleared_routed grown.roster (grown.making _ _ rfl) freed single ?_
    intro other fd remembers isOpen
    exact (grown.placed rfl other fd remembers isOpen).imp id fun same => (Option.some.inj same).symm

theorem register_routed (covered : Covered server) (routed : Routed server)
    (pc : server.pc = .created con infd) (granted : Bool) :
    Routed (registerStep server con infd granted) := by
  have roster := routed.roster
  rw [listeningSocket, pc] at roster
  have serving := routed.making con infd (by rw [pc]; rfl)
  have single : counter server.world con = 1 := covered.single con (by rw [pc]; rfl)
  have placed := routed.placed (by rw [pc]; rfl)
  rw [pc] at placed
  rcases register_cases server con infd granted with ⟨items, same⟩ | ⟨_, items, same⟩
  · have absent : con ∉ server.world.mConnections.items := by
      intro member
      have listed := List.count_pos_iff.mpr member
      have enough := covered.enough con
      simp only [surplus, holders, registered, pc, pending, inHand, single, if_true] at enough
      omega
    rw [same]
    refine ⟨roster_push roster serving absent rfl rfl items, ?_, ?_⟩
    · intro other fd makes
      cases makes
      exact serving
    · intro _ other fd remembers isOpen
      left
      simp only [setConnections_items, items, List.mem_append, List.mem_singleton]
      exact (placed other fd remembers isOpen).imp id fun same => (Option.some.inj same).symm
  · rw [same]
    refine cleared_routed (roster_neutral roster (neutral_objects rfl rfl) items)
      (serving_view serving rfl) covered.freed single ?_
    intro other fd remembers isOpen
    simp only [setConnections_items, items]
    exact (placed other fd remembers isOpen).imp id fun same => (Option.some.inj same).symm

theorem announce_routed (covered : Covered server) (routed : Routed server)
    (pc : server.pc = .registered con infd) (granted : Bool) :
    Routed (announceStep server con infd granted) := by
  have roster := routed.roster
  rw [listeningSocket, pc] at roster
  have serving := routed.making con infd (by rw [pc]; rfl)
  have single : counter server.world con = 1 := covered.single con (by rw [pc]; rfl)
  obtain ⟨front, last⟩ := covered.last con infd pc
  rcases announce_cases server con infd granted with ⟨items, same⟩ | ⟨_, items, same⟩
  · rw [same]
    refine routed_neutral routed (neutral_objects rfl rfl) rfl ?_ (.inr ⟨rfl, ?_, ?_⟩)
    · simp [listeningSocket, running, pc]
    · rw [pc]
      rfl
    · intro _
      rw [pc]
      rfl
  · have erased := erase_last last
    rw [same]
    refine cleared_routed (roster_drop roster front last rfl rfl erased)
      (serving_view serving rfl) covered.freed single ?_
    intro other fd remembers isOpen
    have listed := (routed.placed (by rw [pc]; rfl) other fd remembers isOpen).resolve_right (by
      rw [pc]
      intro impossible
      cases impossible)
    rw [last, List.mem_append, List.mem_singleton] at listed
    simpa only [setConnections_items, setNew_connections, erased] using listed

theorem raise_routed (routed : Routed server) (pc : server.pc = .announced con) :
    Routed (raiseStep server con) := by
  refine routed_neutral routed (neutral_incr server.world con)
    (congrArg Connections.items (incr_lists server.world con).connections) ?_ (.inr ⟨rfl, ?_, ?_⟩)
  · simp [listeningSocket, running, pc, raiseStep]
  · rw [pc]
    rfl
  · intro _
    rw [pc]
    rfl

end Accepting

section Steps

variable {server after : Server} {label : Label}

theorem userDestroy_routed {con : ConRef} {world : World} (covered : Covered server)
    (routed : Routed server) (stale : NoStaleClose server (.userDestroy con))
    (destroys : server.world.userDestroy con = some world) :
    Routed { server with world := world } := by
  have owned := userDestroy_owned routed.roster.owned covered.freed (stale con rfl) destroys
  have same := userDestroy_views standing_uncounted destroys
  obtain ⟨lists, _, _, keeps, shrinks⟩ := userDestroy_effect destroys
  have items := congrArg Connections.items lists
  exact routed_frame routed (roster_frame routed.roster owned same items) same keeps shrinks items
    (.inl rfl)

theorem step_routed (covered : Covered server) (routed : Routed server)
    (stale : NoStaleClose server label) (stepped : step server label = some after) :
    Routed after := by
  cases step_moved stepped with
  | closed number peer closing asked cause => exact closeNumber_routed covered routed closing _ _
  | turned pc before isQuiet =>
      obtain ⟨runs, _, pushed⟩ := quiet_running before
      obtain ⟨stays, makes, _⟩ := quiet_running isQuiet
      exact routed_neutral routed (neutral_objects rfl rfl) rfl
        (by simp [listeningSocket, runs, stays]) (.inr ⟨makes, pushed, fun _ => runs⟩)
  | accepted pc accepts => exact accept_routed covered routed pc accepts
  | registered con infd pc => exact register_routed covered routed pc _
  | announced con infd pc => exact announce_routed covered routed pc _
  | raised con pc => exact raise_routed routed pc
  | read number world pc reads =>
      exact routed_neutral routed (neutral_readData reads)
        (congrArg Connections.items (readData_references reads).lists.connections) rfl (.inl rfl)
  | stopped pc => exact stop_routed covered routed pc
  | destroyed pc => exact destroyServer_routed routed pc
  | userAccepted =>
      unfold userAcceptStep
      split
      · exact routed
      · exact routed_neutral routed (neutral_objects rfl rfl) rfl rfl (.inl rfl)
  | userRead world reads =>
      exact routed_neutral routed (neutral_userRead reads)
        (congrArg Connections.items (userRead_references reads).lists.connections) rfl (.inl rfl)
  | userDestroyed world destroys => exact userDestroy_routed covered routed stale destroys
  | arrived world arrives =>
      exact routed_neutral routed (neutral_arrive arrives)
        (congrArg Connections.items (arrive_references arrives).lists.connections) rfl (.inl rfl)

theorem listening_routed (mServerId : Int) (number : Nat) :
    Routed (.listening mServerId number) := by
  have nobody : ∀ con, assigned (Server.listening mServerId number).world
      (some ⟨number, 0⟩) (some con) = none := fun _ => rfl
  have holder : ∀ held fd, assigned (Server.listening mServerId number).world
      (some ⟨number, 0⟩) held = some fd → held = none ∧ fd = ⟨number, 0⟩ := by
    intro held fd remembers
    cases held with
    | none => exact ⟨rfl, (Option.some.inj remembers).symm⟩
    | some con =>
        rw [nobody] at remembers
        cases remembers
  have opened : ∀ place acquisition,
      (Server.listening mServerId number).world.table.opened place = some acquisition →
        place = number ∧ acquisition = 0 := by
    intro place acquisition isOpen
    simp only [Server.listening] at isOpen
    split at isOpen
    · rename_i same
      exact ⟨same, (Option.some.inj isOpen).symm⟩
    · cases isOpen
  refine ⟨⟨⟨?_, ?_, ?_, ?_, ?_⟩, List.nodup_nil, ?_⟩, ?_, ?_⟩
  · intro place acquisition isOpen
    rw [(opened place acquisition isOpen).2]
    exact Nat.one_pos
  · intro held fd remembers
    rw [(holder held fd remembers).2]
    exact Nat.one_pos
  · intro left right fd other remembersLeft remembersRight _
    rw [(holder left fd remembersLeft).1, (holder right other remembersRight).1]
  · intro held fd _ remembers
    rw [(holder held fd remembers).2]
    simp [Server.listening]
  · intro held fd place remembers isOpen
    rw [(holder held fd remembers).2]
    exact (opened place _ isOpen).1
  · intro con member
    cases member
  · intro con infd makes
    cases makes
  · intro _ con fd remembers
    cases remembers

end Steps

section Closes

variable {server after : Server} {label : Label}

/-- An allocation that fails once the object of an accept iteration exists. -/
def undoes : Label → Bool
  | .accept _ _ answers => !answers.peerAddr
  | .register granted | .announce granted => !granted
  | _ => false

/-- The user who drops a last reference drops that of a connection whose descriptor is still its
own, and no accept iteration is undone. -/
structure ClosesOwn (server : Server) (label : Label) : Prop where
  early : NoEarlyDestroy server label
  own : ∀ con ∈ label.destroyed, OwnClose server.world con
  done : undoes label = false

instance (server : Server) (label : Label) : Decidable (ClosesOwn server label) :=
  decidable_of_iff (NoEarlyDestroy server label ∧
    (∀ con ∈ label.destroyed, ∀ object ∈ server.world.objects con, object.con.mRefCounter = 1 →
      object.con.mState = .failed → object.con.mSockDesc = none) ∧ undoes label = false)
    ⟨fun ⟨early, own, done⟩ => ⟨early, own, done⟩, fun own => ⟨own.early, own.own, own.done⟩⟩

theorem closesOwn_fresh (own : ClosesOwn server label) : NoStaleClose server label :=
  fun con gone => ownClose_staleFree (own.own con gone)

theorem settled_neutral {listening : Option Descriptor} {world after : World}
    (settled : SettledWorld world listening) (neutral : Neutral world after) :
    SettledWorld after listening := settled_keeps settled neutral.keeps neutral.table

theorem stop_settled (covered : Covered server) (routed : Routed server)
    (settled : SettledWorld server.world (listeningSocket server)) (pc : server.pc = .ready) :
    SettledWorld (stopStep server).world none := by
  have roster := routed.roster
  rw [listeningSocket, pc] at roster settled
  obtain ⟨owned, once⟩ := destroyAll_invariant
    (fun world => OwnedWorld world (some server.mServerSocket) ∧
      SettledWorld world (some server.mServerSocket))
    server.world.mConnections.items roster.single (roster_unfailed roster) covered.freed
    (quiet_enough covered (by rw [pc]; rfl))
    (fun _ _ _ held found isLive => ⟨owned_destroy held.1 found fun _ => .inl isLive,
      settled_destroy held.2 held.1 found fun _ => .inl isLive⟩) ⟨roster.owned, settled⟩
  exact settled_unlisten once owned

/-- Every step but a close, which may close what it has already closed. -/
theorem step_settled (covered : Covered server) (routed : Routed server)
    (own : ClosesOwn server label) (closes : closedNumber server label = none)
    (stepped : step server label = some after)
    (settled : SettledWorld server.world (listeningSocket server)) :
    SettledWorld after.world (listeningSocket after) := by
  cases step_moved stepped with
  | closed number peer closing asked =>
      rw [closes] at asked
      cases asked
  | turned pc before isQuiet =>
      rw [listeningSocket, if_pos (quiet_running before).1] at settled
      rw [listeningSocket, if_pos (quiet_running isQuiet).1]
      exact settled
  | accepted pc accepts =>
      have owned := routed.roster.owned
      rw [listeningSocket, pc] at owned settled
      obtain ⟨infd, world, acquires, rfl | ⟨made, arrived, rfl | ⟨refused, rfl⟩⟩⟩ :=
        accept_cases accepts
      · exact settled_acquire_close acquires settled owned
      · exact settled_add acquires arrived.descriptor settled
      · have done := own.done
        rw [undoes, refused] at done
        cases done
  | @registered granted con infd pc =>
      rw [listeningSocket, pc] at settled
      rcases register_cases server con infd granted with ⟨_, same⟩ | ⟨refused, _, same⟩
      · rw [same]
        exact settled_neutral settled (neutral_objects rfl rfl)
      · have done := own.done
        rw [undoes, refused] at done
        cases done
  | @announced granted con infd pc =>
      rw [listeningSocket, pc] at settled
      rcases announce_cases server con infd granted with ⟨_, same⟩ | ⟨refused, _, same⟩
      · rw [same]
        exact settled_neutral settled (neutral_objects rfl rfl)
      · have done := own.done
        rw [undoes, refused] at done
        cases done
  | raised con pc =>
      rw [listeningSocket, pc] at settled
      exact settled_neutral settled (neutral_incr server.world con)
  | read number world pc reads => exact settled_neutral settled (neutral_readData reads)
  | stopped pc => exact stop_settled covered routed settled pc
  | destroyed pc =>
      rw [listeningSocket, pc] at settled
      exact settled_neutral settled (neutral_objects rfl rfl)
  | userAccepted =>
      unfold userAcceptStep
      split
      · exact settled
      · exact settled_neutral settled (neutral_objects rfl rfl)
  | userRead world reads => exact settled_neutral settled (neutral_userRead reads)
  | userDestroyed world destroys =>
      have result := userDestroy_settled settled routed.roster.owned covered.freed (own.own _ rfl)
        destroys
      exact result
  | arrived world arrives => exact settled_neutral settled (neutral_arrive arrives)

theorem listening_settled (mServerId : Int) (number : Nat) :
    SettledWorld (Server.listening mServerId number).world
      (listeningSocket (.listening mServerId number)) := by
  refine ⟨⟨List.nodup_nil, ?_⟩, ?_, ?_⟩ <;> intro call member <;> cases member

end Closes

end Libasock.ServerDescriptors
