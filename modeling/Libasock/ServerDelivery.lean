import Libasock.ServerDescriptors

/-!
Where the bytes of a server's sockets go. Every connection hears its own socket
and nothing else, as long as no stale close takes the number of another one
away. A socket closed because of its peer loses what it still buffers.
-/

namespace Libasock.ServerDelivery
open ByteBlocks GuardedRuns NumberReuse ReturnCodes TsqueueModel ConnectionObjects WorkerWorld
  ReferenceCounts DescriptorOwnership SocketContents RegisteredConnections ServerWorker
  ServerReferences ServerDescriptors

/-- The size of the chunk a label enqueues and what its allocation answers. -/
def chunk : Label → Option (Nat × Allocation)
  | .readData count answer => some (count, answer)
  | _ => none

def readingNumber : Pc → Option Nat
  | .reading number => some number
  | _ => none

def Stored (server : Server) (label : Label) : Prop :=
  Stores server.world (readingNumber server.pc) (chunk label)

def Routable (server : Server) (label : Label) : Prop :=
  NoEarlyDestroy server label ∧ NoStaleClose server label ∧ Stored server label

instance (server : Server) (label : Label) : Decidable (NoStaleClose server label) :=
  inferInstanceAs (Decidable (∀ con ∈ label.destroyed, ∀ object ∈ server.world.objects con,
    object.con.mRefCounter = 1 → object.con.mState = .failed →
      ∀ fd ∈ object.con.mSockDesc, server.world.table.opened fd.number = none))

instance (server : Server) (label : Label) : Decidable (Stored server label) :=
  inferInstanceAs (Decidable (Stores server.world (readingNumber server.pc) (chunk label)))

instance (server : Server) (label : Label) : Decidable (Routable server label) :=
  inferInstanceAs (Decidable (_ ∧ _ ∧ _))

section Contents

variable {server after : Server} {label : Label}

theorem cleared_contents (server : Server) (world : World) (con : ConRef) (infd : Descriptor) :
    view receipt (clearAfterFailure server world con infd).world = view receipt world ∧
      (clearAfterFailure server world con infd).world.sockets = world.sockets := by
  constructor
  · simp only [clearAfterFailure]
    rw [view_objects (close_objects _), view_destroy receipt_uncounted]
  · simp only [clearAfterFailure, close_sockets, destroy_sockets]

theorem register_contents (server : Server) (con : ConRef) (infd : Descriptor) (granted : Bool) :
    view receipt (registerStep server con infd granted).world = view receipt server.world ∧
      (registerStep server con infd granted).world.sockets = server.world.sockets := by
  unfold registerStep
  simp only
  split
  · exact cleared_contents server _ con infd
  · exact ⟨rfl, rfl⟩

theorem announce_contents (server : Server) (con : ConRef) (infd : Descriptor) (granted : Bool) :
    view receipt (announceStep server con infd granted).world = view receipt server.world ∧
      (announceStep server con infd granted).world.sockets = server.world.sockets := by
  unfold announceStep
  simp only
  split
  · exact cleared_contents server _ con infd
  · exact ⟨rfl, rfl⟩

/-- A read from an open number concerns the connection found, and no other one's socket. -/
theorem read_routed {number acquisition : Nat} (covered : Covered server) (routed : Routed server)
    (pc : server.pc = .reading number)
    (isOpen : server.world.table.opened number = some acquisition) (con : ConRef) :
    ∀ fd, assigned server.world none (some con) = some fd →
      (fd.acquisition = acquisition ↔ server.world.conBySockDesc number = some con) := by
  have runs : running server.pc = true := by rw [pc]; rfl
  have alive := all_live covered routed runs
  intro fd remembers
  by_cases listed : con ∈ server.world.mConnections.items
  · exact lookup_owner routed.roster alive isOpen listed remembers
  · have unknown : server.world.conBySockDesc number ≠ some con :=
      lookup_unlisted routed.roster alive listed
    refine ⟨fun hit => ?_, fun known => absurd known unknown⟩
    have opened : server.world.table.opened number = some fd.acquisition := by rw [isOpen, hit]
    have place := routed.roster.owned.home (some con) fd number remembers opened
    rw [place] at opened
    have placed := routed.placed runs con fd remembers opened
    rw [pc] at placed
    exact absurd (placed.resolve_right (by intro impossible; cases impossible)) listed

theorem step_heard (covered : Covered server) (routed : Routed server)
    (stored : Stored server label) (stepped : step server label = some after)
    (heard : ∀ con, Heard server.world con) (con : ConRef) : Heard after.world con := by
  cases step_moved stepped with
  | closed number peer =>
      exact heard_same (heard con) (congrFun (close_receipt server.world number) con)
        (close_connection_sockets server.world number)
  | turned => exact heard con
  | accepted pc accepts =>
      have owned := routed.roster.owned
      obtain ⟨infd, world, acquires, rfl | ⟨made, arrived, rfl | ⟨_, rfl⟩⟩⟩ :=
        accept_cases accepts
      · have same : view receipt (world.close (some infd)) = view receipt world :=
          view_objects (close_objects _)
        exact heard_same (acquire_heard acquires owned (heard con)) (congrFun same con)
          (close_sockets _)
      · exact heard_add acquires arrived.descriptor arrived.sound arrived.emptyIn owned heard con
      · obtain ⟨same, sockets⟩ := cleared_contents server (world.add made) world.created infd
        exact heard_same (heard_add acquires arrived.descriptor arrived.sound arrived.emptyIn owned
          heard con) (congrFun same con) sockets
  | registered made infd =>
      obtain ⟨same, sockets⟩ := register_contents server made infd _
      exact heard_same (heard con) (congrFun same con) sockets
  | announced made infd =>
      obtain ⟨same, sockets⟩ := announce_contents server made infd _
      exact heard_same (heard con) (congrFun same con) sockets
  | raised made =>
      exact heard_same (heard con) (congrFun (view_incr receipt_uncounted _ made) con) incr_sockets
  | read number world pc reads =>
      obtain ⟨acquisition, isOpen, _⟩ := readData_cases server.world reads
      obtain ⟨granted, addressable⟩ := stored _ rfl
      exact readData_heard reads granted (addressable number (by rw [pc]; rfl)) isOpen
        (read_routed covered routed pc isOpen con) (heard con)
  | stopped =>
      refine heard_same (heard con) (congrFun ?_ con) ?_
      · simp only [stopStep]
        rw [view_objects (close_objects _), view_destroyAll receipt_uncounted]
      · simp only [stopStep, close_sockets, destroyAll_sockets]
  | destroyed => exact heard con
  | userAccepted =>
      unfold userAcceptStep
      split
      · exact heard con
      · exact heard con
  | userRead world reads => exact userRead_heard reads (heard con)
  | userDestroyed world destroys =>
      obtain ⟨_, _, sockets, _⟩ := userDestroy_effect destroys
      exact heard_same (heard con) (congrFun (userDestroy_views receipt_uncounted destroys) con)
        sockets
  | arrived world arrives => exact arrive_heard arrives (heard con)

end Contents

section Results

/-- Each registered connection is found under its own number, and every connection has
received exactly what was read from its own socket. -/
structure BytesRouted (server : Server) : Prop where
  single : (registered server).Nodup
  distinct : ∀ left ∈ registered server, ∀ right ∈ registered server, ∀ leftFd rightFd,
    assigned server.world none (some left) = some leftFd →
    assigned server.world none (some right) = some rightFd →
    leftFd.number = rightFd.number → left = right
  lookup : ∀ con ∈ registered server, ∃ fd, assigned server.world none (some con) = some fd ∧
    server.world.table.opened fd.number = some fd.acquisition ∧
    server.world.conBySockDesc fd.number = some con
  received : ∀ con object fd, server.world.objects con = some object →
    object.con.mSockDesc = some fd →
    object.returned ++ bytesOf object.con.mInQueue = (server.world.sockets fd.acquisition).consumed

theorem registered_running {server : Server} {con : ConRef} (member : con ∈ registered server) :
    running server.pc = true ∧ con ∈ server.world.mConnections.items := by
  cases pc : server.pc <;> simp_all [registered, running]

theorem routed_bytes {server : Server} (covered : Covered server) (routed : Routed server)
    (heard : ∀ con, Heard server.world con) : BytesRouted server := by
  have roster := routed.roster
  have place : ∀ {con}, con ∈ registered server → AllLive server.world ∧
      con ∈ server.world.mConnections.items := by
    intro con member
    obtain ⟨runs, listed⟩ := registered_running member
    exact ⟨all_live covered routed runs, listed⟩
  refine ⟨?_, ?_, ?_, fun con object fd found => (heard con object found).bytes fd⟩
  · unfold registered
    split
    · exact List.nodup_nil
    · exact List.nodup_nil
    · exact roster.single
  · intro left memberLeft right memberRight leftFd rightFd remembersLeft remembersRight same
    obtain ⟨alive, listedLeft⟩ := place memberLeft
    obtain ⟨_, listedRight⟩ := place memberRight
    obtain ⟨fd, servingLeft⟩ := roster.serving left listedLeft
    obtain ⟨other, servingRight⟩ := roster.serving right listedRight
    rw [serving_assigned servingLeft none, Option.some.injEq] at remembersLeft
    rw [serving_assigned servingRight none, Option.some.injEq] at remembersRight
    subst remembersLeft remembersRight
    exact listed_apart roster alive listedLeft listedRight servingLeft servingRight same
  · intro con member
    obtain ⟨alive, listed⟩ := place member
    obtain ⟨fd, serving⟩ := roster.serving con listed
    exact ⟨fd, serving_assigned serving none, roster.owned.opened (some con) fd (alive con listed)
      (serving_assigned serving _), lookup_own roster alive listed serving⟩

/-- The references, the descriptors and the contents of a run without a stale close. -/
theorem routable_run {mServerId : Int} {number : Nat} {server : Server}
    (run : GuardedRun step Routable (.listening mServerId number) server) :
    (Covered server ∧ Routed server) ∧ ∀ con, Heard server.world con := by
  apply run.invariant_with (fun server => Covered server ∧ Routed server)
    (fun server => ∀ con, Heard server.world con)
  · intro before label after held allowed stepped
    exact ⟨(step_covered held.1 allowed.1 stepped).1,
      step_routed held.1 held.2 allowed.2.1 stepped⟩
  · intro before label after held heard allowed stepped
    exact step_heard held.1 held.2 allowed.2.2 stepped heard
  · exact ⟨(listening_covered mServerId number).1, listening_routed mServerId number⟩
  · intro con object found
    cases found

theorem bytes_never_cross (mServerId : Int) (number : Nat) (server : Server)
    (run : GuardedRun step Routable (.listening mServerId number) server) : BytesRouted server :=
  routed_bytes (routable_run run).1.1 (routable_run run).1.2 (routable_run run).2

def received (server : Server) (con : ConRef) : Option (List Byte) :=
  (server.world.objects con).map fun object => object.returned ++ bytesOf object.con.mInQueue

-- The user of the first connection gives it up only when the second has got its number;
-- the third then shares the number with the second, which is found first.
theorem stale_close_crosses :
    ∃ server, Run step (.listening 1 3) server ∧ ¬ BytesRouted server := by
  obtain ⟨server, run, tested⟩ := replayed step (fun _ _ => True) (.listening 1 3)
    (acceptOne 3 5 ++ [.userAccept, .event 5 hungUp] ++ acceptOne 3 5 ++ [.userDestroy 0] ++
      acceptOne 3 5 ++ [.arrive 5 [104, 105], .event 5 readable, .readData 2 zeroed])
    (fun server => assigned server.world none (some 1) = some ⟨5, 2⟩ ∧
      received server 1 = some [104, 105] ∧ (server.world.sockets 2).consumed = [])
    (by decide +kernel)
  obtain ⟨remembers, bytes, nothing⟩ := of_decide_eq_true tested
  refine ⟨server, run, fun routed => ?_⟩
  obtain ⟨object, found, descriptor⟩ := Option.bind_eq_some_iff.mp remembers
  have own := routed.received 1 object ⟨5, 2⟩ found descriptor
  rw [received, found, Option.map_some, Option.some.injEq] at bytes
  rw [bytes, nothing] at own
  cases own

theorem second_connection_routed : ∃ server, Run step (.listening 1 3) server ∧
    registered server = [1] ∧ received server 1 = some [104, 105] ∧ BytesRouted server := by
  obtain ⟨server, run, tested⟩ := replayed step Routable (.listening 1 3)
    (acceptOne 3 5 ++ [.userAccept, .event 5 hungUp, .userDestroy 0] ++ acceptOne 3 5 ++
      [.arrive 5 [104, 105], .event 5 readable, .readData 2 zeroed])
    (fun server => registered server = [1] ∧ received server 1 = some [104, 105])
    (by decide +kernel)
  obtain ⟨listed, bytes⟩ := of_decide_eq_true tested
  exact ⟨server, run.weaken fun _ _ _ => trivial, listed, bytes, bytes_never_cross 1 3 server run⟩

end Results

section Draining

variable {server after : Server} {label : Label}

/-- The number whose hang-up or error an event reports. -/
def hangsUp : Label → Option Nat
  | .event number mask => if mask.epollerr ∨ mask.epollhup then some number else none
  | _ => none

/-- A hang-up or an error is reported for a registered connection only when its socket
has nothing left to read. -/
def EmptyAtHangUp (server : Server) (label : Label) : Prop :=
  Routable server label ∧ ∀ number ∈ hangsUp label,
    (server.world.conBySockDesc number).isSome = true → server.world.atEnd number = true

instance (server : Server) (label : Label) : Decidable (EmptyAtHangUp server label) :=
  inferInstanceAs (Decidable (_ ∧ ∀ number ∈ hangsUp label,
    (server.world.conBySockDesc number).isSome = true → server.world.atEnd number = true))

def AllDrained (server : Server) : Prop := ∀ con ∈ server.closedByPeer, Drained server.world con

theorem clear_drained {world : World} {con other : ConRef} {infd : Descriptor}
    (drained : Drained world other) :
    Drained (clearAfterFailure server world con infd).world other := by
  have closes : Keeps (world.destroyAsock con) ((world.destroyAsock con).close (some infd)) :=
    keeps_objects (close_objects _)
  exact drained_shrinks drained ((destroy_keeps world con).trans closes)
    ((destroy_shrinks world con).trans (close_shrinks _ _)) (cleared_contents server world con infd).2

theorem peer_atEnd (quietly : EmptyAtHangUp server label) {number : Nat}
    (cause : PeerCause server label number)
    (known : (server.world.conBySockDesc number).isSome = true) :
    server.world.atEnd number = true := by
  rcases cause with ⟨mask, rfl, hung⟩ | ⟨rfl, ended⟩
  · exact quietly.2 number (if_pos hung) known
  · exact ended

theorem step_drained (covered : Covered server) (routed : Routed server)
    (quietly : EmptyAtHangUp server label) (stepped : step server label = some after)
    (drained : AllDrained server) : AllDrained after := by
  have same : ∀ {world : World}, (∀ con, Drained server.world con → Drained world con) →
      ∀ con ∈ server.closedByPeer, Drained world con :=
    fun kept con closed => kept con (drained con closed)
  cases step_moved stepped with
  | closed number peer closing asked cause =>
      intro con closed
      have kept : ∀ con, Drained server.world con →
          Drained (server.world.closeConnection number).2 con := fun con held =>
        drained_shrinks held (close_keeps _ number) (close_connection_shrinks _ number)
          (close_connection_sockets _ number)
      -- only a close for the peer's sake puts a connection on the list
      cases peer with
      | false => exact kept con (drained con closed)
      | true =>
          simp only [closeNumber, if_true, List.mem_append, Option.mem_toList] at closed
          rcases closed with before | known
          · exact kept con (drained con before)
          · have alive := all_live covered routed (quiet_running (mayClose_quiet closing)).1
            exact close_drained routed.roster alive known
              (peer_atEnd quietly (cause rfl) (by rw [known]; rfl))
  | turned => exact drained
  | accepted pc accepts =>
      have owned := routed.roster.owned
      have fresh : ∀ con, Drained server.world con → con ≠ server.world.created := by
        rintro _ ⟨fd, remembers, _⟩ rfl
        obtain ⟨object, found, _⟩ := Option.bind_eq_some_iff.mp remembers
        rw [unborn_absent covered.placed] at found
        cases found
      obtain ⟨infd, world, acquires, rfl | ⟨made, arrived, rfl | ⟨_, rfl⟩⟩⟩ :=
        accept_cases accepts
      · refine same fun con held => ?_
        exact drained_shrinks (acquire_drained acquires owned held) (keeps_objects (close_objects _))
          (close_shrinks _ _) (close_sockets _)
      · refine same fun con held => add_drained (acquire_drained acquires owned held) ?_
        rw [(acquire_references acquires).lists.created]
        exact fresh con held
      · refine same fun con held => clear_drained
          (add_drained (acquire_drained acquires owned held) ?_)
        rw [(acquire_references acquires).lists.created]
        exact fresh con held
  | registered con infd =>
      unfold registerStep
      simp only
      split
      · exact same fun other held => clear_drained held
      · exact drained
  | announced con infd =>
      unfold announceStep
      simp only
      split
      · exact same fun other held => clear_drained held
      · exact drained
  | raised con =>
      have neutral := neutral_incr server.world con
      exact same fun other held => drained_shrinks held neutral.keeps (shrinks_table neutral.table)
        incr_sockets
  | read number world pc reads => exact same fun con held => drained_readData reads held
  | stopped pc =>
      have keeps : Keeps server.world (stopStep server).world :=
        (destroyAll_keeps server.world _).trans (keeps_objects (close_objects _))
      have shrinks : Shrinks server.world (stopStep server).world :=
        (destroyAll_shrinks server.world _).trans (close_shrinks _ _)
      have sockets : (stopStep server).world.sockets = server.world.sockets := by
        simp only [stopStep, close_sockets, destroyAll_sockets]
      exact same fun con held => drained_shrinks held keeps shrinks sockets
  | destroyed => exact drained
  | userAccepted =>
      unfold userAcceptStep
      split
      · exact drained
      · exact drained
  | userRead world reads =>
      have neutral := neutral_userRead reads
      obtain ⟨_, _, _, _, _, _, _, rfl⟩ := userRead_cases server.world reads
      exact same fun con held => drained_shrinks held neutral.keeps (shrinks_table neutral.table) rfl
  | userDestroyed world destroys =>
      obtain ⟨_, _, sockets, keeps, shrinks⟩ := userDestroy_effect destroys
      exact same fun con held => drained_shrinks held keeps shrinks sockets
  | arrived world arrives => exact same fun con held => drained_arrive arrives held

theorem server_complete {mServerId : Int} {number : Nat} {server : Server}
    (run : GuardedRun step EmptyAtHangUp (.listening mServerId number) server) :
    ∀ con ∈ server.closedByPeer, Complete server.world con := by
  obtain ⟨_, heard, drained⟩ := run.invariant_with (fun server => Covered server ∧ Routed server)
    (fun server => (∀ con, Heard server.world con) ∧ AllDrained server)
    (fun _ _ _ held quietly stepped => ⟨(step_covered held.1 quietly.1.1 stepped).1,
      step_routed held.1 held.2 quietly.1.2.1 stepped⟩)
    (fun _ _ _ held kept quietly stepped => ⟨step_heard held.1 held.2 quietly.1.2.2 stepped kept.1,
      step_drained held.1 held.2 quietly stepped kept.2⟩)
    ⟨(listening_covered mServerId number).1, listening_routed mServerId number⟩
    ⟨(fun con object found => by cases found), (fun con closed => by cases closed)⟩
  exact fun con closed => drained_complete (drained con closed) (heard con)

end Draining

end Libasock.ServerDelivery
