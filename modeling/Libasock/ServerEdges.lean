import Libasock.EdgeTriggers
import Libasock.UnreadSockets
import Libasock.ServerDelivery
import Libasock.ListeningSockets

/-!
A running server with the readiness of its descriptors: `EPOLLET` reports a
descriptor once for what has happened since it was last reported, so that a
connection or the listening socket is looked at again only if something happens
to it. The moves are those of the server, each at the place the event loop has
for it; a visit takes the next entry of `m_events`.
-/

namespace Libasock.ServerEdges
open ByteBlocks GuardedRuns NumberReuse ReturnCodes TsqueueModel ConnectionObjects WorkerWorld
  ReferenceCounts DescriptorOwnership SocketContents RegisteredConnections ServerWorker
  ServerReferences ServerDescriptors ServerDelivery EdgeTriggers UnreadSockets ListeningSockets

structure PolledServer where
  server : Server
  /-- The latched descriptors and the part of `m_events` not visited yet. -/
  poll : Poll EventMask
  /-- The connections that wait in the listening socket. -/
  backlog : Nat

inductive Turn where
  | wait (taken : List (Nat × EventMask))
  | incoming
  | hangUp (number : Nat)
  | move (label : Label)

/-- A listening socket is reported for its backlog and for nothing else. -/
def plain (mask : EventMask) : Prop :=
  mask.epollin = true ∧ mask.epollerr = false ∧ mask.epollhup = false

instance (mask : EventMask) : Decidable (plain mask) := inferInstanceAs (Decidable (_ ∧ _ ∧ _))

/-- What a move means for the readiness and the backlog; `none` where the loop does not make it.
The passes and the directives come between two batches; `read()` says `EAGAIN` when there is
nothing to read. -/
def paced (polled : PolledServer) : Label → Option PolledServer
  | .event number mask =>
      (polled.poll.next number mask).map fun poll => { polled with poll := poll }
  | .accept .. =>
      if 0 < polled.backlog then some { polled with backlog := polled.backlog - 1 } else none
  | .readAgain =>
      match polled.server.pc with
      | .reading number => if polled.server.world.atEnd number then some polled else none
      | _ => none
  | .sendFailed _ | .disconnect _ | .stop =>
      if polled.poll.batch.isEmpty then some polled else none
  | .arrive number _ => some { polled with poll := polled.poll.raise number }
  | _ => some polled

def step (polled : PolledServer) : Turn → Option PolledServer
  | .wait taken =>
      if polled.server.pc = .ready ∧
          ∀ entry ∈ taken, entry.1 = polled.server.mServerSocket.number → plain entry.2 then
        (polled.poll.wait maxEvents taken).map fun poll => { polled with poll := poll }
      else none
  | .incoming =>
      if running polled.server.pc then
        some { polled with
          poll := polled.poll.raise polled.server.mServerSocket.number
          backlog := polled.backlog + 1 }
      else none
  | .hangUp number => some { polled with poll := polled.poll.raise number }
  | .move label =>
      (paced polled label).bind fun polled =>
        (ServerWorker.step polled.server label).map fun server =>
          { polled with server := server, poll := polled.poll.prune server.world.isOpen }

def PolledServer.listening (mServerId : Int) (number : Nat) : PolledServer :=
  ⟨.listening mServerId number, ⟨[], []⟩, 0⟩

/-- The condition of the server's own moves. -/
def Moves (guard : Server → Label → Prop) (polled : PolledServer) : Turn → Prop
  | .move label => guard polled.server label
  | _ => True

def Turn.endsAccept : Turn → Bool
  | .move .acceptEnd => true
  | _ => false

/-- The accept loop ends only when no connection waits any more. -/
def AcceptsAll (polled : PolledServer) (turn : Turn) : Prop :=
  turn.endsAccept = true → polled.backlog = 0

instance (polled : PolledServer) (turn : Turn) : Decidable (Moves Routable polled turn) :=
  match turn with
  | .move label => inferInstanceAs (Decidable (Routable polled.server label))
  | .wait _ => .isTrue trivial
  | .incoming => .isTrue trivial
  | .hangUp _ => .isTrue trivial

instance (polled : PolledServer) (turn : Turn) : Decidable (AcceptsAll polled turn) :=
  inferInstanceAs (Decidable (_ → _))

section Phases
variable {server after : Server} {label : Label}

def acceptPhase : Pc → Bool
  | .accepting | .created .. | .registered .. | .announced _ => true
  | _ => false

/-- A read loop is left when there is nothing to read, or with its connection closed. -/
theorem reading_step {number : Nat} (pc : server.pc = .reading number)
    (stepped : ServerWorker.step server label = some after) (runs : running after.pc = true) :
    after.pc = .reading number ∨ label = .readAgain ∨
      ∃ peer, after = closeNumber server number peer := by
  rcases step_sides stepped with ⟨_, used⟩ | ⟨_, worked⟩
  · rcases user_pc used with same | ended
    · exact .inl (same.trans pc)
    · rw [ended] at runs
      cases runs
  · cases label with
    | readData count answer =>
        simp only [workerStep, pc] at worked
        obtain ⟨world, _, rfl⟩ := Option.map_eq_some_iff.mp worked
        exact .inl rfl
    | readAgain => exact .inr (.inl rfl)
    | readFailed =>
        simp only [workerStep, pc] at worked
        cases worked
        exact .inr (.inr ⟨false, rfl⟩)
    | readEnd =>
        simp only [workerStep, pc] at worked
        split at worked
        · cases worked
          exact .inr (.inr ⟨true, rfl⟩)
        · cases worked
    | _ => simp [workerStep, pc] at worked

theorem register_phase (server : Server) (con : ConRef) (infd : Descriptor) (granted : Bool) :
    acceptPhase (registerStep server con infd granted).pc = true := by
  rcases register_cases server con infd granted with ⟨_, same⟩ | ⟨_, _, same⟩
  · rw [same]
    rfl
  · rw [same]
    rfl

theorem announce_phase (server : Server) (con : ConRef) (infd : Descriptor) (granted : Bool) :
    acceptPhase (announceStep server con infd granted).pc = true := by
  rcases announce_cases server con infd granted with ⟨_, same⟩ | ⟨_, _, same⟩
  · rw [same]
    rfl
  · rw [same]
    rfl

/-- The accept loop is left by its end only. -/
theorem accepting_step (phase : acceptPhase server.pc = true)
    (stepped : ServerWorker.step server label = some after) (runs : running after.pc = true) :
    acceptPhase after.pc = true ∨ label = .acceptEnd := by
  rcases step_sides stepped with ⟨_, used⟩ | ⟨_, worked⟩
  · rcases user_pc used with same | ended
    · rw [same]
      exact .inl phase
    · rw [ended] at runs
      cases runs
  · cases pc : server.pc with
    | accepting =>
        cases label with
        | accept number peer answers =>
            simp only [workerStep, pc] at worked
            left
            obtain ⟨infd, world, _, rfl | ⟨con, _, rfl | ⟨_, rfl⟩⟩⟩ := accept_cases worked
            · rfl
            · rfl
            · rfl
        | acceptEnd => exact .inr rfl
        | _ => simp [workerStep, pc] at worked
    | created con infd =>
        cases label with
        | register granted =>
            simp only [workerStep, pc, Option.some.injEq] at worked
            subst worked
            exact .inl (register_phase server con infd granted)
        | _ => simp [workerStep, pc] at worked
    | registered con infd =>
        cases label with
        | announce granted =>
            simp only [workerStep, pc, Option.some.injEq] at worked
            subst worked
            exact .inl (announce_phase server con infd granted)
        | _ => simp [workerStep, pc] at worked
    | announced con =>
        cases label with
        | raise =>
            simp only [workerStep, pc, Option.some.injEq] at worked
            subst worked
            exact .inl rfl
        | _ => simp [workerStep, pc] at worked
    | _ => rw [pc] at phase; cases phase

theorem socket_same (stepped : ServerWorker.step server label = some after) :
    after.mServerSocket = server.mServerSocket := by
  cases step_moved stepped with
  | accepted pc accepts =>
      obtain ⟨_, _, _, rfl | ⟨_, _, rfl | ⟨_, rfl⟩⟩⟩ := accept_cases accepts
      · rfl
      · rfl
      · rfl
  | registered con infd pc =>
      unfold registerStep
      simp only
      split <;> rfl
  | announced con infd pc =>
      unfold announceStep
      simp only
      split <;> rfl
  | userAccepted =>
      unfold userAcceptStep
      split <;> rfl
  | _ => rfl

end Phases

section Unread
variable {server after : Server} {label : Label} {con : ConRef} {fd : Descriptor}

theorem cleared_unread {world : World} {made : ConRef} {infd : Descriptor}
    (unread : Unread (clearAfterFailure server world made infd).world con fd) :
    Unread world con fd := by
  have keeps : Keeps world ((world.destroyAsock made).close (some infd)) :=
    (destroy_keeps world made).trans (keeps_objects (close_objects _))
  exact unread_keeps unread keeps ((destroy_shrinks world made).trans (close_shrinks _ _))
    (cleared_contents server world made infd).2

/-- Only an arrival makes a connection's socket unread. -/
theorem step_unread (routed : Routed server) (stepped : ServerWorker.step server label = some after)
    (unread : Unread after.world con fd) :
    Unread server.world con fd ∨ ∃ bytes, label = .arrive fd.number bytes := by
  cases step_moved stepped with
  | closed number peer => exact .inl (unread_close number unread)
  | turned => exact .inl unread
  | accepted pc accepts =>
      left
      obtain ⟨infd, world, acquires, rfl | ⟨made, arrived, rfl | ⟨_, rfl⟩⟩⟩ :=
        accept_cases accepts
      · exact unread_acquire acquires (unread_keeps unread (keeps_objects (close_objects _))
          (close_shrinks _ _) (close_sockets _))
      · exact unread_add acquires arrived.descriptor unread
      · exact unread_add acquires arrived.descriptor (cleared_unread unread)
  | registered made infd =>
      left
      unfold registerStep at unread
      simp only at unread
      split at unread
      · exact unread_same (cleared_unread unread) rfl rfl rfl
      · exact unread_same unread rfl rfl rfl
  | announced made infd =>
      left
      unfold announceStep at unread
      simp only at unread
      split at unread
      · exact unread_same (cleared_unread unread) rfl rfl rfl
      · exact unread_same unread rfl rfl rfl
  | raised made =>
      have neutral := neutral_incr server.world made
      exact .inl (unread_keeps unread neutral.keeps (shrinks_table neutral.table) incr_sockets)
  | read number world pc reads => exact .inl (unread_readData reads unread)
  | stopped pc =>
      left
      have keeps : Keeps server.world (stopStep server).world :=
        (destroyAll_keeps server.world _).trans (keeps_objects (close_objects _))
      have shrinks : Shrinks server.world (stopStep server).world :=
        (destroyAll_shrinks server.world _).trans (close_shrinks _ _)
      refine unread_keeps unread keeps shrinks ?_
      simp only [stopStep, close_sockets, destroyAll_sockets]
  | destroyed => exact .inl (unread_same unread rfl rfl rfl)
  | userAccepted =>
      left
      unfold userAcceptStep at unread
      split at unread
      · exact unread
      · exact unread_same unread rfl rfl rfl
  | userRead world reads => exact .inl (unread_userRead reads unread)
  | userDestroyed world destroys => exact .inl (unread_userDestroy destroys unread)
  | arrived world arrives =>
      rcases unread_arrive routed.roster.owned arrives unread with before | same
      · exact .inl before
      · exact .inr ⟨_, by rw [same]⟩

/-- The listening socket's number is nobody else's while the server runs. -/
theorem unread_elsewhere (routed : Routed server) (runs : running server.pc = true)
    (unread : Unread server.world con fd) : fd.number ≠ server.mServerSocket.number := by
  intro same
  have owned := routed.roster.owned
  rw [listeningSocket, if_pos runs] at owned
  have listening := owned.opened none server.mServerSocket trivial rfl
  have isOpen := unread.isOpen
  rw [same, listening, Option.some.injEq] at isOpen
  have impossible := owned.apart none (some con) _ fd rfl unread.remembers isOpen
  cases impossible

/-- Where connections are closed, an unread one is registered. -/
theorem unread_listed (routed : Routed server) (closing : mayClose server.pc = true)
    (unread : Unread server.world con fd) : con ∈ server.world.mConnections.items := by
  obtain ⟨runs, _, pushed⟩ := quiet_running (mayClose_quiet closing)
  refine (routed.placed runs con fd unread.remembers unread.isOpen).resolve_right ?_
  rw [pushed]
  intro impossible
  cases impossible

theorem closed_elsewhere (covered : Covered server) (routed : Routed server)
    (closing : mayClose server.pc = true) {number : Nat} {peer : Bool}
    (unread : Unread (closeNumber server number peer).world con fd) : fd.number ≠ number := by
  rintro rfl
  have before : Unread server.world con fd := unread_close fd.number unread
  have runs := (quiet_running (mayClose_quiet closing)).1
  have shut := close_shuts_own routed.roster (all_live covered routed runs)
    (unread_listed routed closing before) before.remembers
  have isOpen := unread.isOpen
  simp only [closeNumber, shut] at isOpen
  cases isOpen

end Unread

section Pacing
variable {polled middle after : PolledServer} {label : Label}

/-- What a move does to the readiness before the server makes it. -/
structure Pace (polled : PolledServer) (label : Label) (middle : PolledServer) : Prop where
  server : middle.server = polled.server
  noticed : ∀ covers source, Noticed covers polled.poll source →
    Noticed covers middle.poll source ∨ ∃ mask, label = .event source mask ∧ covers mask
  arrived : ∀ number bytes, label = .arrive number bytes →
    ∀ covers, Noticed covers middle.poll number
  emptied : label = .readAgain →
    ∃ number, polled.server.pc = .reading number ∧ polled.server.world.atEnd number = true
  backlog : middle.backlog ≤ polled.backlog
  unnoticed : ∀ source, Noticed (fun _ => True) middle.poll source →
    Noticed (fun _ => True) polled.poll source ∨ ∃ bytes, label = .arrive source bytes
  visited : ∀ source mask, label = .event source mask →
    Noticed (fun _ => True) polled.poll source
  unaccepted : middle.backlog = polled.backlog ∨
    ∃ number peer answers, label = .accept number peer answers

/-- A move that neither reports, visits nor accepts anything. -/
def still : Label → Bool
  | .event .. | .accept .. | .readAgain | .arrive .. => false
  | _ => true

theorem still_pace (isStill : still label = true) : Pace polled label polled := by
  refine ⟨rfl, fun _ _ noticed => .inl noticed, ?_, ?_, Nat.le_refl _,
    fun _ noticed => .inl noticed, ?_, .inl rfl⟩
  · rintro number bytes rfl
    cases isStill
  · rintro rfl
    cases isStill
  · rintro source mask rfl
    cases isStill

theorem between_pace (isStill : still label = true)
    (paces : (if polled.poll.batch.isEmpty then some polled else none) = some middle) :
    Pace polled label middle := by
  split at paces
  · cases paces
    exact still_pace isStill
  · cases paces

theorem event_pace {number : Nat} {mask : EventMask} {poll : Poll EventMask}
    (visits : polled.poll.next number mask = some poll) :
    Pace polled (.event number mask) { polled with poll := poll } := by
  have member : (number, mask) ∈ polled.poll.batch := by
    rw [(next_head visits).2]
    exact List.mem_cons_self
  refine ⟨rfl, ?_, ?_, ?_, Nat.le_refl _, fun source here => .inl (of_noticed_next visits here),
    ?_, .inl rfl⟩
  · intro covers source noticed
    rcases noticed_next visits noticed with stays | ⟨same, covered⟩
    · exact .inl stays
    · exact .inr ⟨mask, by rw [same], covered⟩
  · intro other bytes same
    cases same
  · intro same
    cases same
  · intro source other same
    cases same
    exact .inr ⟨mask, member, trivial⟩

theorem accept_pace {number : Nat} {peer : List Byte} {answers : AcceptAnswers} :
    Pace polled (.accept number peer answers)
      { polled with backlog := polled.backlog - 1 } := by
  refine ⟨rfl, fun _ _ noticed => .inl noticed, ?_, ?_, Nat.sub_le _ _,
    fun _ noticed => .inl noticed, ?_, .inr ⟨number, peer, answers, rfl⟩⟩
  · intro other bytes same
    cases same
  · intro same
    cases same
  · intro source mask same
    cases same

theorem again_pace {number : Nat} (pc : polled.server.pc = .reading number)
    (ended : polled.server.world.atEnd number = true) : Pace polled .readAgain polled := by
  refine ⟨rfl, fun _ _ noticed => .inl noticed, ?_, fun _ => ⟨number, pc, ended⟩, Nat.le_refl _,
    fun _ noticed => .inl noticed, ?_, .inl rfl⟩
  · intro other bytes same
    cases same
  · intro source mask same
    cases same

theorem arrive_pace {number : Nat} {bytes : List Byte} :
    Pace polled (.arrive number bytes) { polled with poll := polled.poll.raise number } := by
  refine ⟨rfl, fun _ _ noticed => .inl (noticed_raise number noticed), ?_, ?_, Nat.le_refl _,
    ?_, ?_, .inl rfl⟩
  · intro other more same covers
    cases same
    exact noticed_raised covers polled.poll number
  · intro same
    cases same
  · intro source noticed
    by_cases hit : number = source
    · exact .inr ⟨bytes, by rw [hit]⟩
    · exact .inl (of_noticed_raise noticed hit)
  · intro source mask same
    cases same

theorem paced_pace (paces : paced polled label = some middle) : Pace polled label middle := by
  cases label with
  | event number mask =>
      obtain ⟨poll, visits, rfl⟩ := Option.map_eq_some_iff.mp paces
      exact event_pace visits
  | accept number peer answers =>
      simp only [paced] at paces
      split at paces
      · cases paces
        exact accept_pace
      · cases paces
  | readAgain =>
      simp only [paced] at paces
      split at paces
      · rename_i number pc
        split at paces
        · rename_i ended
          cases paces
          exact again_pace pc ended
        · cases paces
      · cases paces
  | arrive number bytes =>
      cases paces
      exact arrive_pace
  | sendFailed con => exact between_pace rfl paces
  | disconnect con => exact between_pace rfl paces
  | stop => exact between_pace rfl paces
  | _ =>
      cases paces
      exact still_pace rfl

theorem move_cases (stepped : step polled (.move label) = some after) :
    ∃ middle server, Pace polled label middle ∧
      ServerWorker.step polled.server label = some server ∧
      after = { middle with server := server, poll := middle.poll.prune server.world.isOpen } := by
  obtain ⟨middle, paces, moves⟩ := Option.bind_eq_some_iff.mp stepped
  obtain ⟨server, moved, rfl⟩ := Option.map_eq_some_iff.mp moves
  have pace := paced_pace paces
  rw [pace.server] at moved
  exact ⟨middle, server, pace, moved, rfl⟩

/-- A turn leaves the server alone, or is one of its moves. -/
theorem turn_server {turn : Turn} (stepped : step polled turn = some after) :
    after.server = polled.server ∨ ∃ label, turn = .move label ∧
      ServerWorker.step polled.server label = some after.server := by
  cases turn with
  | wait taken =>
      simp only [step] at stepped
      split at stepped
      · obtain ⟨_, _, rfl⟩ := Option.map_eq_some_iff.mp stepped
        exact .inl rfl
      · cases stepped
  | incoming =>
      simp only [step] at stepped
      split at stepped
      · cases stepped
        exact .inl rfl
      · cases stepped
  | hangUp number =>
      cases stepped
      exact .inl rfl
  | move label =>
      obtain ⟨_, server, _, moved, rfl⟩ := move_cases stepped
      exact .inr ⟨label, rfl, moved⟩

end Pacing

section Watching
variable {polled after : PolledServer} {turn : Turn}

def Sound (server : Server) : Prop :=
  (Covered server ∧ Routed server) ∧ ∀ con, Heard server.world con

theorem step_sound (sound : Sound polled.server) (allowed : Moves Routable polled turn)
    (stepped : step polled turn = some after) : Sound after.server := by
  rcases turn_server stepped with same | ⟨label, rfl, moved⟩
  · rwa [same]
  · obtain ⟨⟨covered, routed⟩, heard⟩ := sound
    have coveredAfter := (step_covered covered allowed.1 moved).1
    have routedAfter := step_routed covered routed allowed.2.1 moved
    exact ⟨⟨coveredAfter, routedAfter⟩, step_heard covered routed allowed.2.2 moved heard⟩

theorem listening_sound (mServerId : Int) (number : Nat) : Sound (.listening mServerId number) := by
  refine ⟨⟨(listening_covered mServerId number).1, listening_routed mServerId number⟩, ?_⟩
  intro con object found
  cases found

/-- Whatever waits to be read is noticed, or is being read. -/
def BytesNoticed (polled : PolledServer) : Prop :=
  running polled.server.pc = true → ∀ con fd, Unread polled.server.world con fd →
    Noticed (fun _ => True) polled.poll fd.number ∨ polled.server.pc = .reading fd.number

/-- Whoever waits to be accepted is noticed, or the accept loop is at work. -/
def BacklogNoticed (polled : PolledServer) : Prop :=
  running polled.server.pc = true → 0 < polled.backlog →
    Noticed plain polled.poll polled.server.mServerSocket.number ∨
      acceptPhase polled.server.pc = true

theorem move_bytes {label : Label} (sound : Sound polled.server) (noticed : BytesNoticed polled)
    (stepped : step polled (.move label) = some after) : BytesNoticed after := by
  obtain ⟨⟨covered, routed⟩, _⟩ := sound
  obtain ⟨middle, server, pace, moved, rfl⟩ := move_cases stepped
  intro runs con fd unread
  have ran : running polled.server.pc = true := running_before moved runs
  -- a latch survives while its number is open
  have latched : Noticed (fun _ => True) middle.poll fd.number →
      Noticed (fun _ => True) (middle.poll.prune server.world.isOpen) fd.number :=
    fun here => noticed_prune here (by rw [World.isOpen, unread.isOpen]; rfl)
  rcases step_unread routed moved unread with before | ⟨bytes, arrival⟩
  · rcases noticed ran con fd before with waits | reading
    · rcases pace.noticed _ _ waits with stays | ⟨mask, event, _⟩
      · exact .inl (latched stays)
      · subst event
        obtain ⟨pc, rfl⟩ := event_step moved
        unfold eventStep at unread runs ⊢
        split at unread
        · exact absurd rfl (closed_elsewhere covered routed (by rw [pc]; rfl) unread)
        · rename_i healthy
          rw [if_neg healthy]
          rw [if_neg (unread_elsewhere routed ran before)]
          exact .inr rfl
    · rcases reading_step reading moved runs with same | again | ⟨peer, rfl⟩
      · exact .inr same
      · obtain ⟨number, pc, ended⟩ := pace.emptied again
        rw [reading] at pc
        cases pc
        have empty : (polled.server.world.sockets fd.acquisition).buffered = [] := by
          simpa [World.atEnd, before.isOpen] using ended
        exact absurd empty before.buffered
      · exact absurd rfl (closed_elsewhere covered routed (by rw [reading]; rfl) unread)
  · exact .inl (latched (pace.arrived _ bytes arrival _))

theorem step_bytes (sound : Sound polled.server) (noticed : BytesNoticed polled)
    (stepped : step polled turn = some after) : BytesNoticed after := by
  cases turn with
  | wait taken =>
      simp only [step] at stepped
      split at stepped
      · rename_i allowed
        obtain ⟨poll, waits, rfl⟩ := Option.map_eq_some_iff.mp stepped
        intro runs con fd unread
        exact (noticed runs con fd unread).imp_left fun here =>
          noticed_wait waits here fun _ _ => trivial
      · cases stepped
  | incoming =>
      simp only [step] at stepped
      split at stepped
      · cases stepped
        intro runs con fd unread
        exact (noticed runs con fd unread).imp_left (noticed_raise _)
      · cases stepped
  | hangUp number =>
      cases stepped
      intro runs con fd unread
      exact (noticed runs con fd unread).imp_left (noticed_raise _)
  | move label => exact move_bytes sound noticed stepped

/-- While the server runs, the socket it listens on is open. -/
def ListensOn (server : Server) : Prop := running server.pc = true → Listens server

theorem step_listensOn (listens : ListensOn polled.server) (stepped : step polled turn = some after) :
    ListensOn after.server := by
  rcases turn_server stepped with same | ⟨label, rfl, moved⟩
  · rwa [same]
  · intro runs
    exact step_listens (listens (running_before moved runs)) moved runs

theorem move_backlog {label : Label} (listens : ListensOn after.server)
    (noticed : BacklogNoticed polled) (all : AcceptsAll polled (.move label))
    (stepped : step polled (.move label) = some after) : BacklogNoticed after := by
  obtain ⟨middle, server, pace, moved, rfl⟩ := move_cases stepped
  intro runs waiting
  have ran : running polled.server.pc = true := running_before moved runs
  have socket := socket_same moved
  have listening : server.world.isOpen polled.server.mServerSocket.number = true :=
    socket ▸ (listens runs).apart.isOpen
  have waited : 0 < polled.backlog := Nat.lt_of_lt_of_le waiting pace.backlog
  rw [socket]
  rcases noticed ran waited with waits | phase
  · rcases pace.noticed _ _ waits with stays | ⟨mask, event, covered⟩
    · exact .inl (noticed_prune stays listening)
    · subst event
      obtain ⟨_, rfl⟩ := event_step moved
      right
      obtain ⟨input, noError, noHup⟩ := covered
      simp [eventStep, input, noError, noHup, acceptPhase]
  · rcases accepting_step phase moved runs with still | ended
    · exact .inr still
    · subst ended
      have none : polled.backlog = 0 := all rfl
      omega

theorem step_backlog (listens : ListensOn after.server) (noticed : BacklogNoticed polled)
    (all : AcceptsAll polled turn) (stepped : step polled turn = some after) :
    BacklogNoticed after := by
  cases turn with
  | wait taken =>
      simp only [step] at stepped
      split at stepped
      · rename_i allowed
        obtain ⟨poll, waits, rfl⟩ := Option.map_eq_some_iff.mp stepped
        intro runs waiting
        exact (noticed runs waiting).imp_left fun here =>
          noticed_wait waits here fun mask member => allowed.2 _ member rfl
      · cases stepped
  | incoming =>
      simp only [step] at stepped
      split at stepped
      · cases stepped
        intro _ _
        exact .inl (noticed_raised _ _ _)
      · cases stepped
  | hangUp number =>
      cases stepped
      intro runs waiting
      exact (noticed runs waiting).imp_left (noticed_raise _)
  | move label => exact move_backlog listens noticed all stepped

end Watching

section Stranding
variable {server next : Server} {polled after : PolledServer}

/-- The accept loop is entered for the listening socket only. -/
theorem enters_accepting {label : Label} (stepped : ServerWorker.step server label = some next)
    (phase : acceptPhase next.pc = true) :
    acceptPhase server.pc = true ∨ ∃ mask, label = .event server.mServerSocket.number mask := by
  rcases step_sides stepped with ⟨_, used⟩ | ⟨_, worked⟩
  · rcases user_pc used with same | ended
    · exact .inl (same ▸ phase)
    · rw [ended] at phase
      cases phase
  · cases pc : server.pc with
    | ready =>
        right
        cases label with
        | event number mask =>
            simp only [workerStep, pc, Option.some.injEq] at worked
            subst worked
            unfold eventStep at phase
            split at phase
            · cases phase
            · split at phase
              · rename_i same
                exact ⟨mask, by rw [same]⟩
              · cases phase
        | sendFailed con =>
            simp only [workerStep, pc] at worked
            obtain ⟨_, _, _, _, _, rfl⟩ := closeRegistered_cases worked
            cases phase
        | disconnect con =>
            simp only [workerStep, pc] at worked
            obtain ⟨_, _, _, _, _, rfl⟩ := closeRegistered_cases worked
            cases phase
        | stop =>
            simp only [workerStep, pc, Option.some.injEq] at worked
            subst worked
            cases phase
        | _ => simp [workerStep, pc] at worked
    | reading number =>
        rcases reading_step pc stepped (by cases h : next.pc <;> simp_all [acceptPhase, running])
          with same | rfl | ⟨peer, rfl⟩
        · rw [same] at phase
          cases phase
        · simp only [workerStep, pc, Option.some.injEq] at worked
          subst worked
          cases phase
        · cases phase
    | stopped => cases label <;> simp [workerStep, pc] at worked
    | destroyed => cases label <;> simp [workerStep, pc] at worked
    | _ => exact .inl rfl

/-- Nothing looks at the listening socket. -/
def Unwatched (polled : PolledServer) : Prop :=
  ¬ Noticed (fun _ => True) polled.poll polled.server.mServerSocket.number ∧
    acceptPhase polled.server.pc = false

/-- A turn that brings no news of the listening socket. -/
def NoNews (polled : PolledServer) : Turn → Prop
  | .incoming => False
  | .hangUp number => number ≠ polled.server.mServerSocket.number
  | .move (.arrive number _) => number ≠ polled.server.mServerSocket.number
  | _ => True

theorem step_unwatched {turn : Turn} (unwatched : Unwatched polled) (quietly : NoNews polled turn)
    (stepped : step polled turn = some after) :
    Unwatched after ∧ after.backlog = polled.backlog ∧
      after.server.mServerSocket = polled.server.mServerSocket := by
  obtain ⟨unnoticed, idle⟩ := unwatched
  cases turn with
  | wait taken =>
      simp only [step] at stepped
      split at stepped
      · obtain ⟨poll, waits, rfl⟩ := Option.map_eq_some_iff.mp stepped
        exact ⟨⟨fun noticed => unnoticed (of_noticed_wait waits noticed), idle⟩, rfl, rfl⟩
      · cases stepped
  | incoming => cases quietly
  | hangUp number =>
      cases stepped
      exact ⟨⟨fun noticed => unnoticed (of_noticed_raise noticed quietly), idle⟩, rfl, rfl⟩
  | move label =>
      obtain ⟨middle, server, pace, moved, rfl⟩ := move_cases stepped
      have socket := socket_same moved
      refine ⟨⟨?_, ?_⟩, ?_, socket⟩
      · intro noticed
        rw [socket] at noticed
        rcases pace.unnoticed _ (of_noticed_prune noticed) with before | ⟨bytes, arrival⟩
        · exact unnoticed before
        · subst arrival
          exact quietly rfl
      · cases phase : acceptPhase server.pc with
        | false => rfl
        | true =>
            rcases enters_accepting moved phase with already | ⟨mask, event⟩
            · rw [idle] at already
              cases already
            · exact absurd (pace.visited _ mask event) unnoticed
      · rcases pace.unaccepted with same | ⟨number, peer, answers, accepts⟩
        · exact same
        · subst accepts
          rcases step_sides moved with ⟨_, used⟩ | ⟨_, worked⟩
          · cases used
          · cases pc : polled.server.pc <;> rw [pc] at idle <;>
              simp [workerStep, pc, acceptPhase] at worked idle

end Stranding

section Results

/-- No byte is left behind: what a registered connection's socket still holds is noticed or
being read, and once nothing is noticed every connection has all that arrived. -/
structure BytesWatched (polled : PolledServer) : Prop where
  noticed : ∀ con ∈ registered polled.server, ∀ fd,
    assigned polled.server.world none (some con) = some fd →
    (polled.server.world.sockets fd.acquisition).buffered ≠ [] →
      Noticed (fun _ => True) polled.poll fd.number ∨ polled.server.pc = .reading fd.number
  drained : polled.server.pc = .ready → polled.poll.quiet = true →
    ∀ con ∈ registered polled.server, ∀ object fd,
      polled.server.world.objects con = some object → object.con.mSockDesc = some fd →
        (polled.server.world.sockets fd.acquisition).buffered = [] ∧
          object.returned ++ bytesOf object.con.mInQueue =
            (polled.server.world.sockets fd.acquisition).consumed

theorem registered_unread {server : Server} {con : ConRef} {fd : Descriptor} (sound : Sound server)
    (member : con ∈ registered server)
    (remembers : assigned server.world none (some con) = some fd)
    (buffered : (server.world.sockets fd.acquisition).buffered ≠ []) :
    Unread server.world con fd := by
  obtain ⟨⟨covered, routed⟩, _⟩ := sound
  obtain ⟨runs, listed⟩ := registered_running member
  have alive := all_live covered routed runs con listed
  exact ⟨remembers, routed.roster.owned.opened (some con) fd alive remembers, buffered⟩

theorem watched_bytes {polled : PolledServer} (sound : Sound polled.server)
    (noticed : BytesNoticed polled) : BytesWatched polled := by
  refine ⟨?_, ?_⟩
  · intro con member fd remembers buffered
    exact noticed (registered_running member).1 con fd
      (registered_unread sound member remembers buffered)
  · intro pc quiet con member object fd found descriptor
    refine ⟨?_, (sound.2 con object found).bytes fd descriptor⟩
    by_contra buffered
    have unread := registered_unread sound member (assigned_some found descriptor) buffered
    rcases noticed (registered_running member).1 con fd unread with waits | reading
    · exact quiet_unnoticed quiet waits
    · rw [pc] at reading
      cases reading

theorem edges_keep_bytes (mServerId : Int) (number : Nat) (polled : PolledServer)
    (run : GuardedRun step (Moves Routable) (.listening mServerId number) polled) :
    BytesWatched polled := by
  have held := run.invariant_with (fun polled => Sound polled.server) BytesNoticed
    (fun before turn after sound allowed stepped =>
      step_sound sound allowed stepped)
    (fun before turn after sound noticed _ stepped => step_bytes sound noticed stepped)
    (listening_sound mServerId number)
    (fun _ con fd unread => by
      have none := unread.remembers
      cases none)
  exact watched_bytes held.1 held.2

/-- A peer connects and is accepted; its two bytes are reported, read and returned to nobody. -/
def servedTurns : List Turn :=
  [.incoming, .wait [(3, readable)]] ++ (acceptOne 3 5).map .move ++
    [.move (.arrive 5 [104, 105]), .wait [(5, readable)], .move (.event 5 readable),
      .move (.readData 2 zeroed), .move .readAgain]

theorem edges_keep_bytes_served : ∃ polled, Run step (.listening 1 3) polled ∧
    polled.poll.quiet = true ∧ received polled.server 0 = some [104, 105] ∧
      BytesWatched polled := by
  obtain ⟨polled, run, tested⟩ := replayed step (Moves Routable) (.listening 1 3) servedTurns
    (fun polled => polled.poll.quiet = true ∧ received polled.server 0 = some [104, 105])
    (by decide +kernel)
  obtain ⟨quiet, bytes⟩ := of_decide_eq_true tested
  exact ⟨polled, run.weaken fun _ _ _ => trivial, quiet, bytes, edges_keep_bytes 1 3 polled run⟩

/-- While `accept()` is called until the backlog is empty, a waiting peer is noticed or being
accepted, and once nothing is noticed nobody waits, whatever happens to the connections. -/
theorem edges_keep_backlog (mServerId : Int) (number : Nat) (polled : PolledServer)
    (run : GuardedRun step AcceptsAll (.listening mServerId number) polled) :
    BacklogNoticed polled ∧
      (polled.server.pc = .ready → polled.poll.quiet = true → polled.backlog = 0) := by
  have held := run.invariant
    (fun polled => ListensOn polled.server ∧ BacklogNoticed polled)
    (fun before turn after held all stepped => by
      have listens := step_listensOn held.1 stepped
      exact ⟨listens, step_backlog listens held.2 all stepped⟩)
    ⟨fun _ => listening_listens mServerId number, fun _ waiting => by cases waiting⟩
  refine ⟨held.2, ?_⟩
  intro pc quiet
  by_contra waiting
  rcases held.2 (by rw [pc]; rfl) (Nat.pos_of_ne_zero waiting) with noticed | phase
  · exact quiet_unnoticed quiet noticed
  · rw [pc] at phase
    cases phase

theorem edges_keep_backlog_served : ∃ polled, Run step (.listening 1 3) polled ∧
    polled.server.pc = .ready ∧ polled.poll.quiet = true ∧ registered polled.server = [0] ∧
      polled.backlog = 0 := by
  obtain ⟨polled, run, tested⟩ := replayed step AcceptsAll (.listening 1 3) servedTurns
    (fun polled => polled.server.pc = .ready ∧ polled.poll.quiet = true ∧
      registered polled.server = [0])
    (by decide +kernel)
  obtain ⟨pc, quiet, listed⟩ := of_decide_eq_true tested
  exact ⟨polled, run.weaken fun _ _ _ => trivial, pc, quiet, listed,
    (edges_keep_backlog 1 3 polled run).2 pc quiet⟩

/-- Peers left over when the accept loop ends early stay there, whatever happens to the
connections, until there is news of the listening socket. -/
theorem unwatched_backlog_stays {first last : PolledServer} (unwatched : Unwatched first)
    (run : GuardedRun step NoNews first last) :
    last.backlog = first.backlog ∧ acceptPhase last.server.pc = false := by
  have held := run.invariant
    (fun polled => Unwatched polled ∧ polled.backlog = first.backlog)
    (fun before turn after held quietly stepped => by
      obtain ⟨still, same, _⟩ := step_unwatched held.1 quietly stepped
      exact ⟨still, same.trans held.2⟩)
    ⟨unwatched, rfl⟩
  exact ⟨held.2, held.1.2⟩

/-- Two peers connect; `accept()` fails for the second, with `EMFILE` say. -/
def strandingTurns : List Turn :=
  [.incoming, .incoming, .wait [(3, readable)]] ++ (acceptOne 3 5).map .move

instance (polled : PolledServer) (turn : Turn) : Decidable (NoNews polled turn) :=
  match turn with
  | .incoming => .isFalse id
  | .hangUp _ => inferInstanceAs (Decidable (_ ≠ _))
  | .wait _ => .isTrue trivial
  | .move label =>
      match label with
      | .arrive .. => inferInstanceAs (Decidable (_ ≠ _))
      | .event .. | .accept .. | .acceptEnd | .register _ | .announce _ | .raise | .readData ..
      | .readAgain | .readFailed | .readEnd | .sendFailed _ | .disconnect _ | .stop
      | .destroyServer | .userAccept | .userRead .. | .userDestroy _ => .isTrue trivial

theorem unwatched_backlog_stays_second : ∃ first last,
    Run step (.listening 1 3) first ∧ Run step first last ∧
      received last.server 0 = some [104, 105] ∧ last.backlog = 1 ∧
        acceptPhase last.server.pc = false := by
  obtain ⟨first, reached, tested⟩ := replayed step (fun _ _ => True) (.listening 1 3)
    strandingTurns
    (fun first => first.poll.quiet = true ∧ first.server.pc = .ready ∧ first.backlog = 1 ∧
      (exec (guarded step NoNews) first
        [.move (.arrive 5 [104, 105]), .wait [(5, readable)], .move (.event 5 readable),
          .move (.readData 2 zeroed), .move .readAgain]).any
        fun last => received last.server 0 = some [104, 105])
    (by decide +kernel)
  obtain ⟨quiet, pc, waiting, replays⟩ := of_decide_eq_true tested
  obtain ⟨last, run, bytes⟩ := replayed step NoNews first _ _ replays
  have stays := unwatched_backlog_stays ⟨quiet_unnoticed quiet, by rw [pc]; rfl⟩ run
  exact ⟨first, last, reached, run.weaken fun _ _ _ => trivial, of_decide_eq_true bytes,
    stays.1.trans waiting, stays.2⟩

end Results

end Libasock.ServerEdges
