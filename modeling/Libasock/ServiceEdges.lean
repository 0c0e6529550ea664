import Libasock.EdgeTriggers
import Libasock.ServiceFronts

/-!
A service with the readiness of its descriptors. Beside the bytes of a socket the
end of a connect attempt is reported once, as `EPOLLOUT`, and the state of the
connection changes in that turn of the event loop or never.
-/

namespace Libasock.ServiceEdges
open ByteBlocks GuardedRuns NumberReuse ReturnCodes TsqueueModel ConnectionObjects WorkerWorld
  ReferenceCounts DescriptorOwnership SocketContents RegisteredConnections ServiceWorker
  ServiceReferences ServiceStates ServiceDescriptors ServiceDelivery EdgeTriggers UnreadSockets
  ServiceFronts

structure PolledService where
  service : Service
  /-- The latched descriptors and the part of `m_events` not visited yet. -/
  poll : Poll EventMask
  /-- The open sockets whose connect attempt is over. -/
  finished : List Descriptor

inductive Turn where
  | wait (taken : List (Nat × EventMask))
  | finish (number : Nat)
  | hangUp (number : Nat)
  | move (label : Label)

/-- What the kernel says about an open socket: `EPOLLIN` while there is something to read, and
`EPOLLOUT` once the attempt is over, as long as nothing has been sent. -/
def Reported (polled : PolledService) (entry : Nat × EventMask) : Prop :=
  ∀ acquisition ∈ polled.service.world.table.opened entry.1,
    (unread polled.service.world ⟨entry.1, acquisition⟩ → entry.2.epollin = true) ∧
    ∀ con ∈ polled.service.world.conBySockDesc entry.1, inProgress polled.service.world con →
      ⟨entry.1, acquisition⟩ ∈ polled.finished → entry.2.epollout = true

instance (polled : PolledService) (entry : Nat × EventMask) : Decidable (Reported polled entry) :=
  inferInstanceAs (Decidable (∀ acquisition ∈ polled.service.world.table.opened entry.1,
    (unread polled.service.world ⟨entry.1, acquisition⟩ → entry.2.epollin = true) ∧
    ∀ con ∈ polled.service.world.conBySockDesc entry.1, inProgress polled.service.world con →
      ⟨entry.1, acquisition⟩ ∈ polled.finished → entry.2.epollout = true))

/-- What a move means for the readiness; `none` where the loop does not make it. The directives
and the passes come between two batches; `read()` says `EAGAIN` when there is nothing to read. -/
def paced (polled : PolledService) : Label → Option (Poll EventMask)
  | .event number mask => polled.poll.next number mask
  | .readAgain =>
      if ∀ number ∈ readingNumber polled.service.pc, polled.service.world.atEnd number = true then
        some polled.poll
      else none
  | .createAsock .. | .beginPass | .sendFailed _ | .disconnect _ | .stop =>
      if polled.poll.batch.isEmpty then some polled.poll else none
  | .arrive number _ => some (polled.poll.raise number)
  | _ => some polled.poll

def stillOpen (service : Service) (fd : Descriptor) : Bool :=
  service.world.table.opened fd.number == some fd.acquisition

def step (polled : PolledService) : Turn → Option PolledService
  | .wait taken =>
      if polled.service.pc = .ready ∧ ∀ entry ∈ taken, Reported polled entry then
        (polled.poll.wait maxEvents taken).map fun poll => { polled with poll := poll }
      else none
  | .finish number =>
      (polled.service.world.table.opened number).map fun acquisition =>
        { polled with
          poll := polled.poll.raise number
          finished := ⟨number, acquisition⟩ :: polled.finished }
  | .hangUp number => some { polled with poll := polled.poll.raise number }
  | .move label =>
      (paced polled label).bind fun poll =>
        (ServiceWorker.step polled.service label).map fun service =>
          ⟨service, poll.prune service.world.isOpen, polled.finished.filter (stillOpen service)⟩

def PolledService.configured (mServiceId : Int) : PolledService :=
  ⟨.configured mServiceId, ⟨[], []⟩, []⟩

/-- Connects from `Idle` only, and no close by a number that has found another owner. -/
def Moves (polled : PolledService) : Turn → Prop
  | .move label => IdleConnect polled.service label ∧ NoStaleClose polled.service label
  | _ => True

section Phases
variable {service after : Service} {label : Label} {number : Nat}

/-- The rest of the turn reads from the descriptor. -/
def ReadsNext (number : Nat) : Pc → Prop
  | .writable current mask | .handling current mask => current = number ∧ mask.epollin = true
  | .reading current => current = number
  | _ => False

/-- The rest of the turn asks how the attempt ended. -/
def ChecksNext (number : Nat) : Pc → Prop
  | .writable current _ => current = number
  | _ => False

theorem running_before (stepped : ServiceWorker.step service label = some after)
    (runs : after.pc ≠ .stopped) : service.pc ≠ .stopped := by
  intro stopped
  rcases step_sides stepped with ⟨_, used⟩ | ⟨_, worked⟩
  · exact runs ((user_pc used).trans stopped)
  · cases label <;> simp [workerStep, stopped] at worked

/-- The `EPOLLOUT` part either finds nobody, or settles how the attempt ended. -/
theorem sockErrorStep_cases (service : Service) (number : Nat) (mask : EventMask)
    (answer : SockError) :
    (service.world.conBySockDesc number = none ∧
      sockErrorStep service number mask answer = { service with pc := .handling number mask }) ∨
    (∃ con, service.world.conBySockDesc number = some con ∧
      sockErrorStep service number mask answer =
        { service with
          world := service.world.setState con .established
          pc := .handling number mask }) ∨
    ∃ peer pc, sockErrorStep service number mask answer = closeNumber service number peer pc := by
  unfold sockErrorStep
  split
  · exact .inl ⟨‹_›, rfl⟩
  · rename_i con known
    cases answer with
    | unreadable => exact .inr (.inr ⟨_, _, rfl⟩)
    | noError => exact .inr (.inl ⟨con, known, rfl⟩)
    | error => exact .inr (.inr ⟨_, _, rfl⟩)

theorem handleStep_cases (service : Service) (number : Nat) {mask : EventMask}
    (input : mask.epollin = true) :
    handleStep service number mask = { service with pc := .reading number } ∨
      handleStep service number mask = closeNumber service number true .ready := by
  unfold handleStep
  split
  · exact .inr rfl
  · rw [if_pos (.inl input)]
    exact .inl rfl

/-- A turn that is to read from a descriptor does so until it is empty, or closes it. -/
theorem reading_step (reads : ReadsNext number service.pc)
    (stepped : ServiceWorker.step service label = some after) :
    ReadsNext number after.pc ∨ (label = .readAgain ∧ service.pc = .reading number) ∨
      ∃ peer pc, mayClose service.pc = true ∧ after = closeNumber service number peer pc := by
  rcases step_sides stepped with ⟨_, used⟩ | ⟨_, worked⟩
  · rw [user_pc used]
    exact .inl reads
  · cases pc : service.pc with
    | writable current mask =>
        rw [pc] at reads
        obtain ⟨rfl, input⟩ := reads
        cases label with
        | sockError answer =>
            simp only [workerStep, pc, Option.some.injEq] at worked
            rcases sockErrorStep_cases service current mask answer with
              ⟨_, same⟩ | ⟨_, _, same⟩ | ⟨peer, next, same⟩
            · rw [← worked, same]
              exact .inl ⟨rfl, input⟩
            · rw [← worked, same]
              exact .inl ⟨rfl, input⟩
            · exact .inr (.inr ⟨peer, next, rfl, worked.symm.trans same⟩)
        | _ => simp [workerStep, pc] at worked
    | handling current mask =>
        rw [pc] at reads
        obtain ⟨rfl, input⟩ := reads
        cases label with
        | handle =>
            simp only [workerStep, pc, Option.some.injEq] at worked
            rcases handleStep_cases service current input with same | same
            · rw [← worked, same]
              exact .inl rfl
            · exact .inr (.inr ⟨true, .ready, rfl, worked.symm.trans same⟩)
        | _ => simp [workerStep, pc] at worked
    | reading current =>
        rw [pc] at reads
        cases reads
        cases label with
        | readData count answer =>
            simp only [workerStep, pc] at worked
            obtain ⟨world, _, rfl⟩ := Option.map_eq_some_iff.mp worked
            exact .inl rfl
        | readAgain => exact .inr (.inl ⟨rfl, rfl⟩)
        | readFailed =>
            simp only [workerStep, pc] at worked
            cases worked
            exact .inr (.inr ⟨false, .ready, rfl, rfl⟩)
        | readEnd =>
            simp only [workerStep, pc] at worked
            split at worked
            · cases worked
              exact .inr (.inr ⟨true, .ready, rfl, rfl⟩)
            · cases worked
        | _ => simp [workerStep, pc] at worked
    | _ => rw [pc] at reads; cases reads

/-- The attempt of the connection that is looked up is over after the `EPOLLOUT` part. -/
theorem checking_step (checks : ChecksNext number service.pc)
    (stepped : ServiceWorker.step service label = some after) :
    ChecksNext number after.pc ∨ service.world.conBySockDesc number = none ∨
      (∃ con, service.world.conBySockDesc number = some con ∧
        after.world = service.world.setState con .established) ∨
      ∃ peer pc, mayClose service.pc = true ∧ after = closeNumber service number peer pc := by
  rcases step_sides stepped with ⟨_, used⟩ | ⟨_, worked⟩
  · rw [user_pc used]
    exact .inl checks
  · cases pc : service.pc with
    | writable current mask =>
        rw [pc] at checks
        cases checks
        cases label with
        | sockError answer =>
            simp only [workerStep, pc, Option.some.injEq] at worked
            right
            rcases sockErrorStep_cases service number mask answer with
              ⟨unknown, _⟩ | ⟨con, known, same⟩ | ⟨peer, next, same⟩
            · exact .inl unknown
            · exact .inr (.inl ⟨con, known, by rw [← worked, same]⟩)
            · exact .inr (.inr ⟨peer, next, rfl, worked.symm.trans same⟩)
        | _ => simp [workerStep, pc] at worked
    | _ => rw [pc] at checks; cases checks

end Phases

section Pacing
variable {polled after : PolledService} {label : Label} {poll : Poll EventMask}

theorem paced_noticed {covers : EventMask → Prop} {source : Nat}
    (paces : paced polled label = some poll) (noticed : Noticed covers polled.poll source) :
    Noticed covers poll source ∨ ∃ mask, label = .event source mask ∧ covers mask := by
  unfold paced at paces
  split at paces
  · rename_i number mask
    rcases noticed_next paces noticed with stays | ⟨same, covered⟩
    · exact .inl stays
    · exact .inr ⟨mask, by rw [same], covered⟩
  · split at paces <;> cases paces
    exact .inl noticed
  · split at paces <;> cases paces
    exact .inl noticed
  · split at paces <;> cases paces
    exact .inl noticed
  · split at paces <;> cases paces
    exact .inl noticed
  · split at paces <;> cases paces
    exact .inl noticed
  · split at paces <;> cases paces
    exact .inl noticed
  · cases paces
    exact .inl (noticed_raise _ noticed)
  · cases paces
    exact .inl noticed

theorem paced_arrived {covers : EventMask → Prop} {number : Nat} {bytes : List Byte}
    (paces : paced polled (.arrive number bytes) = some poll) : Noticed covers poll number := by
  cases paces
  exact noticed_raised covers polled.poll number

theorem paced_emptied {number : Nat} (paces : paced polled .readAgain = some poll)
    (pc : polled.service.pc = .reading number) :
    polled.service.world.atEnd number = true := by
  simp only [paced] at paces
  split at paces
  · rename_i ended
    exact ended number (by rw [pc]; rfl)
  · cases paces

theorem move_cases (stepped : step polled (.move label) = some after) :
    ∃ poll service, paced polled label = some poll ∧
      ServiceWorker.step polled.service label = some service ∧
      after = ⟨service, poll.prune service.world.isOpen,
        polled.finished.filter (stillOpen service)⟩ := by
  obtain ⟨poll, paces, moves⟩ := Option.bind_eq_some_iff.mp stepped
  obtain ⟨service, moved, rfl⟩ := Option.map_eq_some_iff.mp moves
  exact ⟨poll, service, paces, moved, rfl⟩

end Pacing

section Watching
variable {service : Service} {polled after : PolledService} {turn : Turn} {con : ConRef}
  {fd : Descriptor}

structure Sound (service : Service) : Prop where
  covered : Covered service
  staged : Staged service
  roster : Roster service.world none

theorem sound_kept {label : Label} {next : Service} (sound : Sound service)
    (idle : IdleConnect service label) (stale : NoStaleClose service label)
    (stepped : ServiceWorker.step service label = some next) : Sound next :=
  ⟨step_covered sound.covered stepped, step_staged sound.covered sound.staged idle stepped,
    step_roster sound.covered sound.staged sound.roster idle stale stepped⟩

theorem configured_sound (mServiceId : Int) : Sound (.configured mServiceId) :=
  ⟨configured_covered mServiceId, (configured_staged mServiceId).1, configured_roster mServiceId⟩

theorem step_sound (sound : Sound polled.service) (allowed : Moves polled turn)
    (stepped : step polled turn = some after) : Sound after.service := by
  cases turn with
  | wait taken =>
      simp only [step] at stepped
      split at stepped
      · obtain ⟨_, _, rfl⟩ := Option.map_eq_some_iff.mp stepped
        exact sound
      · cases stepped
  | finish number =>
      obtain ⟨_, _, rfl⟩ := Option.map_eq_some_iff.mp stepped
      exact sound
  | hangUp number =>
      cases stepped
      exact sound
  | move label =>
      obtain ⟨_, service, _, moved, rfl⟩ := move_cases stepped
      exact sound_kept sound allowed.1 allowed.2 moved

/-- A front is looked up by its own number. -/
theorem front_known (sound : Sound service) (runs : service.pc ≠ .stopped)
    (front : Front service.world con fd) : service.world.conBySockDesc fd.number = some con := by
  obtain ⟨own, serving⟩ := sound.roster.serving con front.listed
  have same := (serving_assigned serving none).symm.trans front.remembers
  cases same
  exact lookup_own sound.roster (all_live sound.covered sound.roster runs) front.listed serving

/-- No front survives a close of its own number. -/
theorem front_unclosed (sound : Sound service) (runs : service.pc ≠ .stopped) {peer : Bool}
    {pc : Pc} (front : Front (closeNumber service fd.number peer pc).world con fd) : False := by
  have carried : Carried service.world (service.world.closeConnection fd.number).2 .stop con fd :=
    carried_close fd.number front
  have before := carried.front
  have shut := close_shuts_own sound.roster (all_live sound.covered sound.roster runs)
    before.listed before.remembers
  have isOpen := front.isOpen
  simp only [closeNumber, shut] at isOpen
  cases isOpen

def takesInput (mask : EventMask) : Prop := mask.epollin = true

def takesOutput (mask : EventMask) : Prop := mask.epollout = true

/-- Whatever waits to be read is noticed, or is about to be read. -/
def BytesNoticed (polled : PolledService) : Prop :=
  polled.service.pc ≠ .stopped → ∀ con fd, Front polled.service.world con fd →
    unread polled.service.world fd →
      Noticed takesInput polled.poll fd.number ∨ ReadsNext fd.number polled.service.pc

/-- An attempt that is over is noticed, or is about to be settled. -/
def AttemptsNoticed (polled : PolledService) : Prop :=
  polled.service.pc ≠ .stopped → ∀ con fd, Front polled.service.world con fd →
    inProgress polled.service.world con → fd ∈ polled.finished →
      Noticed takesOutput polled.poll fd.number ∨ ChecksNext fd.number polled.service.pc

def FinishedOpen (polled : PolledService) : Prop :=
  ∀ fd ∈ polled.finished, polled.service.world.table.opened fd.number = some fd.acquisition

theorem move_bytes {label : Label} (sound : Sound polled.service) (noticed : BytesNoticed polled)
    (idle : IdleConnect polled.service label)
    (stepped : step polled (.move label) = some after) : BytesNoticed after := by
  obtain ⟨poll, service, paces, moved, rfl⟩ := move_cases stepped
  intro runs con fd front left
  have ran := running_before moved runs
  have latched : Noticed takesInput poll fd.number →
      Noticed takesInput (poll.prune service.world.isOpen) fd.number :=
    fun here => noticed_prune here (by rw [World.isOpen, front.isOpen]; rfl)
  rcases step_carried sound.covered sound.staged sound.roster idle moved runs ran front with
    carried | renewed
  · rcases carried.unread left with before | ⟨bytes, rfl⟩
    · rcases noticed ran con fd carried.front before with waits | reads
      · rcases paced_noticed paces waits with stays | ⟨mask, rfl, input⟩
        · exact .inl (latched stays)
        · obtain ⟨pc, rfl⟩ := event_step moved
          right
          unfold eventStep
          split
          · exact ⟨rfl, input⟩
          · exact ⟨rfl, input⟩
      · rcases reading_step reads moved with same | ⟨rfl, pc⟩ | ⟨peer, next, _, rfl⟩
        · exact .inr same
        · have ended := paced_emptied paces pc
          have empty : (polled.service.world.sockets fd.acquisition).buffered = [] := by
            simpa [World.atEnd, carried.front.isOpen] using ended
          exact absurd empty before
        · exact (front_unclosed sound ran front).elim
    · exact .inl (latched (paced_arrived paces))
  · exact absurd left renewed.empty

theorem move_attempts {label : Label} (sound : Sound polled.service)
    (noticed : AttemptsNoticed polled) (stillOpen : FinishedOpen polled)
    (idle : IdleConnect polled.service label)
    (stepped : step polled (.move label) = some after) : AttemptsNoticed after := by
  obtain ⟨poll, service, paces, moved, rfl⟩ := move_cases stepped
  intro runs con fd front state concluded
  have before := (List.mem_filter.mp concluded).1
  have ran := running_before moved runs
  have latched : Noticed takesOutput poll fd.number →
      Noticed takesOutput (poll.prune service.world.isOpen) fd.number :=
    fun here => noticed_prune here (by rw [World.isOpen, front.isOpen]; rfl)
  rcases step_carried sound.covered sound.staged sound.roster idle moved runs ran front with
    carried | renewed
  · rcases noticed ran con fd carried.front (carried.inProgress state) before with waits | checks
    · rcases paced_noticed paces waits with stays | ⟨mask, rfl, output⟩
      · exact .inl (latched stays)
      · obtain ⟨pc, rfl⟩ := event_step moved
        right
        have isOutput : mask.epollout = true := output
        simp only [eventStep, if_pos isOutput]
        rfl
    · have known := front_known sound ran carried.front
      rcases checking_step checks moved with same | unknown | ⟨found, here, same⟩ |
        ⟨peer, next, _, rfl⟩
      · exact .inr same
      · rw [known] at unknown
        cases unknown
      · rw [known, Option.some.injEq] at here
        subst here
        have now : view stateOf (polled.service.world.setState con .established) con =
            some .established := setState_here .established (carried.inProgress state)
        unfold inProgress at state
        rw [same, now] at state
        cases state
      · exact (front_unclosed sound ran front).elim
  · have held := sound.roster.owned.bounded fd.number fd.acquisition (stillOpen fd before)
    rw [renewed.fresh] at held
    exact absurd held (Nat.lt_irrefl _)

theorem step_bytes (sound : Sound polled.service) (noticed : BytesNoticed polled)
    (allowed : Moves polled turn) (stepped : step polled turn = some after) :
    BytesNoticed after := by
  cases turn with
  | wait taken =>
      simp only [step] at stepped
      split at stepped
      · rename_i reported
        obtain ⟨poll, waits, rfl⟩ := Option.map_eq_some_iff.mp stepped
        intro runs con fd front left
        refine (noticed runs con fd front left).imp_left fun here => ?_
        exact noticed_wait waits here fun mask member =>
          (reported.2 _ member _ front.isOpen).1 left
      · cases stepped
  | finish number =>
      obtain ⟨_, _, rfl⟩ := Option.map_eq_some_iff.mp stepped
      intro runs con fd front left
      exact (noticed runs con fd front left).imp_left (noticed_raise _)
  | hangUp number =>
      cases stepped
      intro runs con fd front left
      exact (noticed runs con fd front left).imp_left (noticed_raise _)
  | move label => exact move_bytes sound noticed allowed.1 stepped

theorem step_finished (stillOpen : FinishedOpen polled) (stepped : step polled turn = some after) :
    FinishedOpen after := by
  cases turn with
  | wait taken =>
      simp only [step] at stepped
      split at stepped
      · obtain ⟨_, _, rfl⟩ := Option.map_eq_some_iff.mp stepped
        exact stillOpen
      · cases stepped
  | finish number =>
      obtain ⟨acquisition, opened, rfl⟩ := Option.map_eq_some_iff.mp stepped
      intro fd member
      rcases List.mem_cons.mp member with rfl | older
      · exact opened
      · exact stillOpen fd older
  | hangUp number =>
      cases stepped
      exact stillOpen
  | move label =>
      obtain ⟨_, service, _, _, rfl⟩ := move_cases stepped
      intro fd member
      exact eq_of_beq (List.mem_filter.mp member).2

theorem step_attempts (sound : Sound polled.service) (noticed : AttemptsNoticed polled)
    (stillOpen : FinishedOpen polled) (allowed : Moves polled turn)
    (stepped : step polled turn = some after) : AttemptsNoticed after := by
  cases turn with
  | wait taken =>
      simp only [step] at stepped
      split at stepped
      · rename_i reported
        obtain ⟨poll, waits, rfl⟩ := Option.map_eq_some_iff.mp stepped
        intro runs con fd front state concluded
        refine (noticed runs con fd front state concluded).imp_left fun here => ?_
        exact noticed_wait waits here fun mask member =>
          (reported.2 _ member _ front.isOpen).2 con (front_known sound runs front) state concluded
      · cases stepped
  | finish number =>
      obtain ⟨acquisition, opened, rfl⟩ := Option.map_eq_some_iff.mp stepped
      intro runs con fd front state concluded
      rcases List.mem_cons.mp concluded with rfl | older
      · exact .inl (noticed_raised _ _ _)
      · exact (noticed runs con fd front state older).imp_left (noticed_raise _)
  | hangUp number =>
      cases stepped
      intro runs con fd front state concluded
      exact (noticed runs con fd front state concluded).imp_left (noticed_raise _)
  | move label => exact move_attempts sound noticed stillOpen allowed.1 stepped

end Watching

section Results
variable {service : Service} {polled : PolledService} {con : ConRef} {fd : Descriptor}

theorem registered_front (sound : Sound service) (member : con ∈ registered service)
    (remembers : assigned service.world none (some con) = some fd) :
    service.pc ≠ .stopped ∧ Front service.world con fd := by
  have listed : service.pc ≠ .stopped ∧ con ∈ service.world.mConnections.items := by
    unfold registered at member
    split at member
    · cases member
    · rename_i runs
      exact ⟨runs, member⟩
  have alive := all_live sound.covered sound.roster listed.1 con listed.2
  exact ⟨listed.1, listed.2, remembers,
    sound.roster.owned.opened (some con) fd alive remembers⟩

/-- What a registered connection's socket still holds is noticed or about to be read, and
once nothing is noticed every such socket is empty. -/
structure BytesWatched (polled : PolledService) : Prop where
  noticed : ∀ con ∈ registered polled.service, ∀ fd,
    assigned polled.service.world none (some con) = some fd →
    (polled.service.world.sockets fd.acquisition).buffered ≠ [] →
      Noticed takesInput polled.poll fd.number ∨ ReadsNext fd.number polled.service.pc
  drained : polled.service.pc = .ready → polled.poll.quiet = true →
    ∀ con ∈ registered polled.service, ∀ fd,
      assigned polled.service.world none (some con) = some fd →
        (polled.service.world.sockets fd.acquisition).buffered = []

/-- An attempt that is over is noticed or about to be settled, and once nothing is noticed
every registered connection whose attempt is over is `Established`. -/
structure AttemptsSettled (polled : PolledService) : Prop where
  noticed : ∀ con ∈ registered polled.service, ∀ fd,
    assigned polled.service.world none (some con) = some fd → fd ∈ polled.finished →
    view stateOf polled.service.world con = some .inProgress →
      Noticed takesOutput polled.poll fd.number ∨ ChecksNext fd.number polled.service.pc
  settled : polled.service.pc = .ready → polled.poll.quiet = true →
    ∀ con ∈ registered polled.service, ∀ fd,
      assigned polled.service.world none (some con) = some fd → fd ∈ polled.finished →
        view stateOf polled.service.world con = some .established

theorem watched_bytes (sound : Sound polled.service) (noticed : BytesNoticed polled) :
    BytesWatched polled := by
  refine ⟨?_, ?_⟩
  · intro con member fd remembers left
    obtain ⟨runs, front⟩ := registered_front sound member remembers
    exact noticed runs con fd front left
  · intro pc quiet con member fd remembers
    obtain ⟨runs, front⟩ := registered_front sound member remembers
    by_contra left
    rcases noticed runs con fd front left with waits | reads
    · exact quiet_unnoticed quiet waits
    · rw [pc] at reads
      cases reads

theorem settled_attempts (sound : Sound polled.service) (noticed : AttemptsNoticed polled) :
    AttemptsSettled polled := by
  refine ⟨?_, ?_⟩
  · intro con member fd remembers concluded state
    obtain ⟨runs, front⟩ := registered_front sound member remembers
    exact noticed runs con fd front state concluded
  · intro pc quiet con member fd remembers concluded
    obtain ⟨runs, front⟩ := registered_front sound member remembers
    refine (sound.staged.served con member).resolve_left ?_
    intro state
    rcases noticed runs con fd front state concluded with waits | checks
    · exact quiet_unnoticed quiet waits
    · rw [pc] at checks
      cases checks

theorem configured_frontless (mServiceId : Int) :
    ¬ Front (PolledService.configured mServiceId).service.world con fd := by
  intro front
  have none := front.remembers
  cases none

theorem service_edges_keep_bytes (mServiceId : Int) (polled : PolledService)
    (run : GuardedRun step Moves (.configured mServiceId) polled) : BytesWatched polled := by
  have held := run.invariant_with (fun polled => Sound polled.service) BytesNoticed
    (fun _ _ _ sound allowed stepped => step_sound sound allowed stepped)
    (fun _ _ _ sound noticed allowed stepped => step_bytes sound noticed allowed stepped)
    (configured_sound mServiceId)
    (fun _ _ _ front => (configured_frontless mServiceId front).elim)
  exact watched_bytes held.1 held.2

instance (polled : PolledService) (turn : Turn) : Decidable (Moves polled turn) :=
  match turn with
  | .move label =>
      decidable_of_iff (IdleConnect polled.service label ∧
        ∀ con ∈ label.destroyed, ∀ object ∈ polled.service.world.objects con,
          object.con.mRefCounter = 1 → object.con.mState = .failed →
            ∀ fd ∈ object.con.mSockDesc, polled.service.world.table.opened fd.number = none)
        Iff.rfl
  | .wait _ => .isTrue trivial
  | .finish _ => .isTrue trivial
  | .hangUp _ => .isTrue trivial

def answered : EventMask := ⟨true, true, false, false, false⟩

/-- A connection whose `connect()` is still under way when the worker has taken it over. -/
def attemptTurns : List Turn :=
  [.move .start, .move (.createAsock 4 granted), .move (.userConnect 0 [1]),
    .move (.userConnectPush 0 true), .move .beginPass,
    .move (.takeOver (.opened 5 (.started false true)) true), .move .endPass]

/-- It succeeds, two bytes arrive, and one turn of the loop sees to both. -/
def answeredTurns : List Turn :=
  attemptTurns ++ [.finish 5, .move (.arrive 5 [104, 105]), .wait [(5, answered)],
    .move (.event 5 answered), .move (.sockError .noError), .move .handle,
    .move (.readData 2 zeroed), .move .readAgain]

theorem service_edges_keep_bytes_answered : ∃ polled, Run step (.configured 1) polled ∧
    polled.service.pc = .ready ∧ polled.poll.quiet = true ∧ registered polled.service = [0] ∧
      (polled.service.world.sockets 1).consumed = [104, 105] ∧ BytesWatched polled := by
  obtain ⟨polled, run, tested⟩ := replayed step Moves (.configured 1) answeredTurns
    (fun polled => polled.service.pc = .ready ∧ polled.poll.quiet = true ∧
      registered polled.service = [0] ∧
        (polled.service.world.sockets 1).consumed = [104, 105])
    (by decide +kernel)
  obtain ⟨pc, quiet, listed, bytes⟩ := of_decide_eq_true tested
  exact ⟨polled, run.weaken fun _ _ _ => trivial, pc, quiet, listed, bytes,
    service_edges_keep_bytes 1 polled run⟩

theorem service_edges_settle_attempts (mServiceId : Int) (polled : PolledService)
    (run : GuardedRun step Moves (.configured mServiceId) polled) : AttemptsSettled polled := by
  have held := run.invariant
    (fun polled => Sound polled.service ∧ AttemptsNoticed polled ∧ FinishedOpen polled)
    (fun _ _ _ held allowed stepped => ⟨step_sound held.1 allowed stepped,
      step_attempts held.1 held.2.1 held.2.2 allowed stepped, step_finished held.2.2 stepped⟩)
    ⟨configured_sound mServiceId, fun _ _ _ front => (configured_frontless mServiceId front).elim,
      fun _ member => absurd member List.not_mem_nil⟩
  exact settled_attempts held.1 held.2.1

theorem service_edges_settle_attempts_answered : ∃ polled, Run step (.configured 1) polled ∧
    polled.service.pc = .ready ∧ polled.poll.quiet = true ∧ registered polled.service = [0] ∧
      polled.finished = [⟨5, 1⟩] ∧
        view stateOf polled.service.world 0 = some .established := by
  obtain ⟨polled, run, tested⟩ := replayed step Moves (.configured 1) answeredTurns
    (fun polled => polled.service.pc = .ready ∧ polled.poll.quiet = true ∧
      registered polled.service = [0] ∧ polled.finished = [⟨5, 1⟩] ∧
        assigned polled.service.world none (some 0) = some ⟨5, 1⟩)
    (by decide +kernel)
  obtain ⟨pc, quiet, listed, concluded, own⟩ := of_decide_eq_true tested
  have settles := (service_edges_settle_attempts 1 polled run).settled pc quiet 0
    (by rw [listed]; exact List.mem_singleton_self 0) ⟨5, 1⟩ own
    (by rw [concluded]; exact List.mem_singleton_self _)
  exact ⟨polled, run.weaken fun _ _ _ => trivial, pc, quiet, listed, concluded, settles⟩

end Results

end Libasock.ServiceEdges
