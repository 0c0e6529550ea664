import Libasock.ServiceDescriptors

/-!
Where the bytes of a service's sockets go. A connection hears nothing until its
takeover and its own socket afterwards. As for a server, a socket closed because
of its peer loses what it still buffers.
-/

namespace Libasock.ServiceDelivery
open ByteBlocks GuardedRuns NumberReuse ReturnCodes TsqueueModel TsqueueContent ConnectionObjects
  WorkerWorld ReferenceCounts DescriptorOwnership SocketContents RegisteredConnections
  ServiceWorker ServiceReferences ServiceStates ServiceDescriptors

/-- The size of the chunk a label enqueues and what its allocation answers. -/
def chunk : Label → Option (Nat × Allocation)
  | .readData count answer => some (count, answer)
  | _ => none

def readingNumber : Pc → Option Nat
  | .reading number => some number
  | _ => none

def Stored (service : Service) (label : Label) : Prop :=
  Stores service.world (readingNumber service.pc) (chunk label)

/-- No stale close, memory for every chunk, and a hang-up or an error reported for a
registered connection only when its socket has nothing left to read. -/
structure EmptyAtHangUp (service : Service) (label : Label) : Prop where
  idle : IdleConnect service label
  stale : NoStaleClose service label
  stored : Stored service label
  empty : ∀ number ∈ hangsUp service label,
    (service.world.conBySockDesc number).isSome = true → service.world.atEnd number = true

instance (service : Service) (label : Label) : Decidable (EmptyAtHangUp service label) :=
  decidable_of_iff (IdleConnect service label ∧
    (∀ con ∈ label.destroyed, ∀ object ∈ service.world.objects con, object.con.mRefCounter = 1 →
      object.con.mState = .failed →
        ∀ fd ∈ object.con.mSockDesc, service.world.table.opened fd.number = none) ∧
    Stores service.world (readingNumber service.pc) (chunk label) ∧
    (∀ number ∈ hangsUp service label,
      (service.world.conBySockDesc number).isSome = true → service.world.atEnd number = true))
    ⟨fun ⟨idle, stale, stored, empty⟩ => ⟨idle, stale, stored, empty⟩,
      fun held => ⟨held.idle, held.stale, held.stored, held.empty⟩⟩

section Silence

variable {world after : World} {con other : ConRef} {object : Object}

/-- Nothing has been received yet. -/
def Unheard (world : World) (con : ConRef) : Prop :=
  ∀ object, world.objects con = some object →
    object.con.Sound ∧ object.returned = [] ∧ bytesOf object.con.mInQueue = []

theorem unheard_view (unheard : Unheard world con)
    (same : view receipt after con = view receipt world con) : Unheard after con := by
  intro object found
  rw [view, found, Option.map_some] at same
  obtain ⟨before, foundBefore, equal⟩ := Option.map_eq_some_iff.mp same.symm
  obtain ⟨sound, returned, empty⟩ := unheard before foundBefore
  simp only [receipt, Prod.mk.injEq] at equal
  obtain ⟨_, inQueue, outQueue, returned'⟩ := equal
  refine ⟨⟨?_, ?_⟩, returned' ▸ returned, inQueue ▸ empty⟩
  · rw [← inQueue]
    exact sound.inQueue
  · rw [← outQueue]
    exact sound.outQueue

/-- Reading from an empty queue changes nothing that counts. -/
theorem unheard_userRead {reader : ConRef} {dst : List Byte}
    (reads : world.userRead reader dst = some after) (unheard : Unheard world con) :
    Unheard after con := by
  obtain ⟨object, count, block, queue, _, found, received, rfl⟩ := userRead_cases world reads
  by_cases hit : con = reader
  · subst hit
    obtain ⟨sound, returned, empty⟩ := unheard object found
    obtain ⟨rest, received', holds⟩ := read_spec dst sound
    rw [received'] at received
    simp only [Except.ok.injEq, Prod.mk.injEq, Asock.mk.injEq, true_and, and_true] at received
    obtain ⟨rfl, rfl, rfl⟩ := received
    intro next foundNext
    rw [put_here, Option.some.injEq] at foundNext
    subst foundNext
    refine ⟨⟨held_bytes holds, sound.outQueue⟩, ?_, ?_⟩
    · simp [returned, empty]
    · rw [bytes_held holds, empty, List.drop_nil]
  · exact unheard_view unheard (view_other _ hit)

end Silence

section Attempts

variable {world after : World} {con other : ConRef} {object : Object}

theorem heard_tried (tried : Tried world after con object) (owned : OwnedWorld world none)
    (different : other ≠ con) (heard : Heard world other) : Heard after other := by
  have same : view receipt after other = view receipt world other := tried_other tried different
  cases tried with
  | refused _ _ sockets => exact heard_same heard same sockets
  | abandoned acquires _ _ sockets | started _ acquires _ _ _ sockets =>
      have stays := acquire_heard acquires owned heard
      have objects := (acquire_effect acquires).1
      refine heard_same stays ?_ sockets
      rw [same, view_objects objects]

/-- The new socket has been read no further than the connection. -/
theorem heard_started (tried : Tried world after con object) (unheard : Unheard world con)
    (serving : ∃ fd, Serving after con fd) (found : world.objects con = some object) :
    Heard after con := by
  obtain ⟨fd, serving⟩ := serving
  obtain ⟨now, here, remembers, unfailed⟩ := serving_object serving
  have shape : ∀ state held,
      after.objects = (world.put con (attempted object state held)).objects →
        now = attempted object state held := by
    intro state held objects
    rw [objects, put_here, Option.some.injEq] at here
    exact here.symm
  cases tried with
  | refused objects =>
      rw [shape _ _ objects] at unfailed
      exact absurd rfl unfailed
  | abandoned _ objects =>
      rw [shape _ _ objects] at unfailed
      exact absurd rfl unfailed
  | started state acquires begun objects table sockets =>
      intro next foundNext
      rw [here, Option.some.injEq] at foundNext
      subst foundNext
      obtain ⟨sound, returned, empty⟩ := unheard object found
      rw [shape _ _ objects]
      refine ⟨⟨sound.inQueue, sound.outQueue⟩, ?_⟩
      intro there remembersThere
      cases remembersThere
      simp [attempted, returned, empty, consumed, sockets, (acquire_effect acquires).2.2]

theorem drained_tried (tried : Tried world after con object) (owned : OwnedWorld world none)
    (different : other ≠ con) (drained : Drained world other) : Drained after other := by
  have move : ∀ {middle : World} {state : AsockConState} {fd : Option Descriptor},
      middle.objects = world.objects →
      after.objects = (world.put con (attempted object state fd)).objects →
      Shrinks middle after → after.sockets = middle.sockets → Drained middle other →
      Drained after other := by
    intro middle state fd objects objectsAfter shrinks sockets held
    obtain ⟨own, remembers, gone, empty⟩ := held
    refine ⟨own, ?_, fun number isOpen => gone number (shrinks number _ isOpen),
      by rw [sockets]; exact empty⟩
    have keeps : Keeps world middle := keeps_objects objects
    rw [(tried_owners objectsAfter).1, Function.update_of_ne (by simpa using different),
      ← keeps.assigned]
    exact remembers
  cases tried with
  | refused objects table sockets => exact move rfl objects (shrinks_table table) sockets drained
  | @abandoned _ fd acquired acquires objects table sockets =>
      have shrinks : Shrinks acquired after :=
        (close_shrinks acquired (some fd)).trans (shrinks_table table)
      exact move (acquire_effect acquires).1 objects shrinks sockets
        (acquire_drained acquires owned drained)
  | started _ acquires _ objects table sockets =>
      exact move (acquire_effect acquires).1 objects (shrinks_table table) sockets
        (acquire_drained acquires owned drained)

end Attempts

section Steps

variable {service after : Service} {label : Label}

/-- A connection the worker serves, or that it has closed because of its peer. -/
def Answered (service : Service) (con : ConRef) : Prop :=
  con ∈ service.world.mConnections.items ∨ con ∈ service.closedByPeer

/-- A connection whose takeover is still to come. -/
def Silent (service : Service) (con : ConRef) : Prop :=
  view stateOf service.world con = some .idle ∨ con ∈ service.connecting ++ waiting service

structure Tuned (service : Service) : Prop where
  heard : ∀ con, Answered service con → Heard service.world con
  unheard : ∀ con, Silent service con → Unheard service.world con
  drained : ∀ con ∈ service.closedByPeer, Drained service.world con
  failed : ∀ con ∈ service.closedByPeer, view stateOf service.world con = some .failed

/-- What a step that delivers nothing and takes nobody over has to establish. -/
theorem tuned_frame (tuned : Tuned service)
    (same : view receipt after.world = view receipt service.world)
    (sockets : after.world.sockets = service.world.sockets)
    (keeps : Keeps service.world after.world) (shrinks : Shrinks service.world after.world)
    (items : ∀ con ∈ after.world.mConnections.items, con ∈ service.world.mConnections.items)
    (closed : after.closedByPeer = service.closedByPeer)
    (silent : ∀ con, Silent after con → Silent service con)
    (states : ∀ con ∈ service.closedByPeer,
      view stateOf after.world con = view stateOf service.world con) : Tuned after := by
  refine ⟨?_, ?_, ?_, ?_⟩
  · rintro con (listed | gone)
    · exact heard_same (tuned.heard con (.inl (items con listed))) (congrFun same con) sockets
    · exact heard_same (tuned.heard con (.inr (closed ▸ gone))) (congrFun same con) sockets
  · intro con quiet
    exact unheard_view (tuned.unheard con (silent con quiet)) (congrFun same con)
  · intro con gone
    rw [closed] at gone
    exact drained_shrinks (tuned.drained con gone) keeps shrinks sockets
  · intro con gone
    rw [closed] at gone
    exact (states con gone).trans (tuned.failed con gone)

theorem silent_same {con : ConRef} (silent : Silent after con)
    (states : view stateOf after.world = view stateOf service.world)
    (connecting : after.connecting = service.connecting)
    (sameWaiting : waiting after = waiting service) : Silent service con := by
  rcases silent with idle | underway
  · exact .inl (by rw [← states]; exact idle)
  · exact .inr (by rw [← connecting, ← sameWaiting]; exact underway)

/-- Who is served is neither `Idle` nor on its way to a takeover. -/
theorem served_unsilent {con : ConRef} (staged : Staged service)
    (member : con ∈ registered service) : ¬ Silent service con := by
  obtain ⟨_, _, apart⟩ := List.nodup_append.mp staged.single
  rintro (idle | underway)
  · rcases staged.served con member with here | here <;>
      (rw [idle] at here; cases here)
  · exact apart con underway con member rfl

theorem closed_unserved {con : ConRef} (staged : Staged service) (tuned : Tuned service)
    (gone : con ∈ service.closedByPeer) : con ∉ registered service := by
  intro member
  have state := tuned.failed con gone
  rcases staged.served con member with here | here <;>
    (rw [state] at here; cases here)

theorem closed_unwaiting {con : ConRef} (staged : Staged service) (tuned : Tuned service)
    (gone : con ∈ service.closedByPeer) : con ∉ service.connecting ++ waiting service := by
  intro member
  have state := tuned.failed con gone
  rw [staged.underway con member] at state
  cases state

theorem close_failed {world : World} {number : Nat} {con : ConRef}
    (known : world.conBySockDesc number = some con) :
    view stateOf (world.closeConnection number).2 con = some .failed := by
  obtain ⟨unknown, _⟩ | ⟨found, index, object, fd, known', _, here, _, _, same⟩ :=
    close_found world number
  · rw [unknown] at known
    cases known
  · rw [known, Option.some.injEq] at known'
    subst known'
    have there : view stateOf (world.forgetNew number) con = some object.con.mState := by
      rw [view_objects (forgetNew_objects world number)]
      simp [view, here, stateOf]
    rw [same]
    simp only [World.closeAt]
    rw [view_objects (setConnections_objects _ _), view_destroy stateOf_uncounted,
      view_objects (close_objects _)]
    exact setState_here .failed there

theorem peer_atEnd (quietly : EmptyAtHangUp service label) {number : Nat}
    (cause : PeerCause service label number)
    (known : (service.world.conBySockDesc number).isSome = true) :
    service.world.atEnd number = true := by
  rcases cause with hung | ⟨_, ended⟩
  · exact quietly.empty number hung known
  · exact ended

theorem closed_tuned (covered : Covered service) (roster : Roster service.world none)
    (tuned : Tuned service) (quietly : EmptyAtHangUp service label) {number : Nat} {peer : Bool}
    {pc : Pc} (closing : mayClose service.pc = true) (isStill : still pc = true)
    (cause : peer = true → PeerCause service label number) :
    Tuned (closeNumber service number peer pc) := by
  obtain ⟨_, new⟩ := still_lists (mayClose_still closing)
  obtain ⟨_, newAfter⟩ :=
    still_lists (show still (closeNumber service number peer pc).pc = true from isStill)
  obtain ⟨_, shorter, _⟩ := close_counts service.world 0 number
  have receipts := close_receipt service.world number
  have sockets := close_connection_sockets service.world number
  have stays : ∀ con ∈ (closeNumber service number peer pc).closedByPeer,
      con ∈ service.closedByPeer ∨
        (peer = true ∧ service.world.conBySockDesc number = some con) := by
    intro con gone
    cases peer with
    | false => exact .inl gone
    | true =>
        simp only [closeNumber, if_true, List.mem_append, Option.mem_toList] at gone
        exact gone.imp id fun known => ⟨rfl, known⟩
  refine ⟨?_, ?_, ?_, ?_⟩
  · intro con answered
    have before : Answered service con := by
      rcases answered with listed | gone
      · exact .inl (close_fewer service.world number listed)
      · exact (stays con gone).elim .inr fun known => .inl (found_listed known.2)
    exact heard_same (tuned.heard con before) (congrFun receipts con) sockets
  · intro con quiet
    refine unheard_view (tuned.unheard con ?_) (congrFun receipts con)
    rcases quiet with idle | underway
    · refine .inl ?_
      have spared : service.world.conBySockDesc number ≠ some con := by
        intro known
        have failed := close_failed known
        rw [show view stateOf (service.world.closeConnection number).2 con = some .idle from idle]
          at failed
        cases failed
      exact (close_states spared).symm.trans idle
    · refine .inr ?_
      rw [newAfter] at underway
      rw [new]
      simp only [closeNumber, shorter] at underway
      exact ((List.Sublist.refl _).append (forgetNew_sublist service.world number)).subset underway
  · intro con gone
    rcases stays con gone with before | ⟨hung, known⟩
    · exact drained_shrinks (tuned.drained con before) (close_keeps _ number)
        (close_connection_shrinks _ number) sockets
    · exact close_drained roster (all_live covered roster (mayClose_runs closing)) known
        (peer_atEnd quietly (cause hung) (by rw [known]; rfl))
  · intro con gone
    by_cases known : service.world.conBySockDesc number = some con
    · exact close_failed known
    · have before := (stays con gone).resolve_right fun hit => known hit.2
      exact (close_states known).trans (tuned.failed con before)

/-- A created object is `Idle` and has received nothing. -/
theorem created_tuned {number : Nat} {answers : ObjectAnswers} (covered : Covered service)
    (roster : Roster service.world none) (tuned : Tuned service)
    (creates : createAsockStep service number answers = some after) : Tuned after := by
  obtain ⟨pc, connecting, closed, listed, new, _, _⟩ := created_states creates
  have sameWaiting : waiting after = waiting service := by simp only [waiting, pc, new]
  have elder : ∀ con, (service.world.objects con).isSome → con ≠ service.world.created := by
    rintro _ known rfl
    rw [unborn_absent covered.placed] at known
    cases known
  have answered : ∀ con, Answered after con → Answered service con ∧ con ≠ service.world.created := by
    intro con answers
    rcases answers with here | gone
    · rw [listed] at here
      obtain ⟨_, serving⟩ := roster.serving con here
      obtain ⟨object, found, _⟩ := serving_object serving
      exact ⟨.inl here, elder con (by rw [found]; rfl)⟩
    · rw [closed] at gone
      obtain ⟨object, found, _⟩ := Option.map_eq_some_iff.mp (tuned.failed con gone)
      exact ⟨.inr gone, elder con (by rw [found]; rfl)⟩
  obtain ⟨fd, world, acquires, made⟩ := created_cases creates
  have objects := (acquire_effect acquires).1
  have owned := roster.owned
  have created := (acquire_references acquires).lists.created
  rcases made with rfl | ⟨made, born, rfl⟩
  · have same : ∀ {Part : Type} {part : Object → Part},
        view part (world.close (some fd)) = view part service.world :=
      view_objects ((close_objects _).trans objects)
    have closes : view receipt (world.close (some fd)) = view receipt world :=
      view_objects (close_objects _)
    refine ⟨?_, ?_, ?_, ?_⟩
    · intro con served
      exact heard_same (acquire_heard acquires owned (tuned.heard con (answered con served).1))
        (congrFun closes con) (close_sockets _)
    · intro con quiet
      exact unheard_view (tuned.unheard con (silent_same quiet same rfl sameWaiting))
        (congrFun same con)
    · intro con gone
      exact drained_shrinks (acquire_drained acquires owned (tuned.drained con gone))
        (keeps_objects (close_objects _)) (close_shrinks _ _) (close_sockets _)
    · intro con gone
      exact (congrFun same con).trans (tuned.failed con gone)
  · have others : ∀ {Part : Type} {part : Object → Part} {con}, con ≠ service.world.created →
        view part ((world.add made).setHeld (world.created :: world.held)) con =
          view part service.world con := by
      intro Part part con different
      rw [← created] at different
      rw [view_objects (setHeld_objects _ _), added_view made different, view_objects objects]
    refine ⟨?_, ?_, ?_, ?_⟩
    · intro con served
      obtain ⟨before, different⟩ := answered con served
      refine heard_same (acquire_heard acquires owned (tuned.heard con before)) ?_ rfl
      rw [others different, view_objects objects]
    · intro con quiet
      -- the new object has an empty queue and has received nothing
      by_cases hit : con = world.created
      · subst hit
        intro object found
        rw [setHeld_objects, added_here, Option.some.injEq] at found
        subst found
        exact ⟨born.sound, rfl, born.emptyIn⟩
      · rw [created] at hit
        refine unheard_view (tuned.unheard con ?_) (others hit)
        refine quiet.imp (fun idle => ?_) fun underway => ?_
        · exact (others hit).symm.trans idle
        · rw [sameWaiting] at underway
          exact underway
    · intro con gone
      have different := (answered con (.inr gone)).2
      rw [← created] at different
      exact drained_shrinks (add_drained (acquire_drained acquires owned (tuned.drained con gone))
        different) (keeps_objects rfl) (shrinks_table rfl) rfl
    · intro con gone
      exact (others (answered con (.inr gone)).2).trans (tuned.failed con gone)

section TakingOver

variable {index : Nat} {con : ConRef} {middle : World} {outcome : ConnectOutcome}

/-- A connect attempt is nothing to the other connections. -/
theorem takeOver_others (covered : Covered service) (staged : Staged service)
    (roster : Roster service.world none) (tuned : Tuned service)
    (pc : service.pc = .takingOver index)
    (here : service.world.mNewConnections.items[index]? = some con)
    (tries : tryConnectToPeer service.world con outcome = some middle) :
    (∀ other, other ≠ con → Answered service other → Heard middle other) ∧
      (∀ other, other ≠ con → Silent service other → Unheard middle other) ∧
      ∀ other ∈ service.closedByPeer, other ≠ con ∧ Drained middle other ∧
        view stateOf middle other = some .failed := by
  obtain ⟨object, found⟩ := taken_object covered pc here
  obtain ⟨tried, _⟩ := tries_cases found tries
  have owned := roster.owned
  have underway : con ∈ service.connecting ++ waiting service := by
    rw [taken pc here]
    simp
  refine ⟨?_, ?_, ?_⟩
  · intro other different answered
    exact heard_tried tried owned different (tuned.heard other answered)
  · intro other different quiet
    exact unheard_view (tuned.unheard other quiet) (tried_other tried different)
  · intro other gone
    have different : other ≠ con := by
      rintro rfl
      exact closed_unwaiting staged tuned gone underway
    exact ⟨different, drained_tried tried owned different (tuned.drained other gone),
      (tried_other tried different).trans (tuned.failed other gone)⟩

/-- Who is still silent after a takeover was silent before, and is not the one taken over. -/
theorem takeOver_silent {other : ConRef} (quiet : Silent after other) (covered : Covered service)
    (staged : Staged service)
    (pc : service.pc = .takingOver index)
    (here : service.world.mNewConnections.items[index]? = some con)
    (tries : tryConnectToPeer service.world con outcome = some middle)
    (lists : after.world.mNewConnections = service.world.mNewConnections)
    (connecting : after.connecting = service.connecting) (later : after.pc = .takingOver (index + 1))
    (states : view stateOf after.world = view stateOf middle)
    (awake : view stateOf middle con ≠ some .idle) :
    other ≠ con ∧ Silent service other := by
  obtain ⟨object, found⟩ := taken_object covered pc here
  have waits : waiting after = service.world.mNewConnections.items.drop (index + 1) := by
    simp only [waiting, later, lists]
  rcases quiet with idle | underway
  · rw [states] at idle
    have different : other ≠ con := by
      rintro rfl
      exact awake idle
    exact ⟨different, .inl ((tries_states found tries different).symm.trans idle)⟩
  · rw [connecting, waits] at underway
    have different : other ≠ con := by
      rintro rfl
      exact (taken_apart staged pc here).2 (List.mem_append_left _ underway)
    refine ⟨different, .inr ?_⟩
    rw [taken pc here]
    exact ((List.Sublist.refl _).append (List.sublist_cons_self _ _)).subset underway

theorem gaveUp_tuned (covered : Covered service) (staged : Staged service)
    (roster : Roster service.world none) (tuned : Tuned service) {object : Object}
    (pc : service.pc = .takingOver index)
    (here : service.world.mNewConnections.items[index]? = some con)
    (tries : tryConnectToPeer service.world con outcome = some middle)
    (found : middle.objects con = some object) (failed : object.con.mState = .failed) :
    Tuned { service with world := middle.destroyAsock con, pc := .takingOver (index + 1) } := by
  obtain ⟨heard, unheard, closed⟩ := takeOver_others covered staged roster tuned pc here tries
  obtain ⟨before, foundBefore⟩ := taken_object covered pc here
  have lists := (tries_cases foundBefore tries).2.trans (destroy_lists middle con)
  have state : view stateOf middle con = some .failed := by simp [view, found, stateOf, failed]
  have served : con ∉ service.world.mConnections.items := taken_unlisted staged pc here
  refine ⟨?_, ?_, ?_, ?_⟩
  · intro other answered
    have earlier : Answered service other ∧ other ≠ con := by
      rcases answered with listed | gone
      · have member : other ∈ service.world.mConnections.items := by
          rw [← lists.connections]
          exact listed
        refine ⟨.inl member, ?_⟩
        rintro rfl
        exact served member
      · exact ⟨.inr gone, (closed other gone).1⟩
    exact heard_same (heard other earlier.2 earlier.1)
      (congrFun (view_destroy receipt_uncounted middle con) other) destroy_sockets
  · intro other quiet
    obtain ⟨different, before⟩ := takeOver_silent quiet covered staged pc here tries lists.new
      rfl rfl (view_destroy stateOf_uncounted middle con) (by rw [state]; decide)
    exact unheard_view (unheard other different before)
      (congrFun (view_destroy receipt_uncounted middle con) other)
  · intro other gone
    exact drained_shrinks (closed other gone).2.1 (destroy_keeps middle con)
      (destroy_shrinks middle con) destroy_sockets
  · intro other gone
    exact (congrFun (view_destroy stateOf_uncounted middle con) other).trans (closed other gone).2.2

theorem tookOver_tuned (covered : Covered service) (staged : Staged service)
    (roster : Roster service.world none) (tuned : Tuned service) {object : Object}
    (pc : service.pc = .takingOver index)
    (here : service.world.mNewConnections.items[index]? = some con)
    (tries : tryConnectToPeer service.world con outcome = some middle)
    (found : middle.objects con = some object) (unfailed : object.con.mState ≠ .failed)
    (granted : Bool) :
    Tuned { service with
      world := middle.setConnections (middle.mConnections.push con granted).2
      pc := .takingOver (index + 1) } := by
  obtain ⟨heard, unheard, closed⟩ := takeOver_others covered staged roster tuned pc here tries
  obtain ⟨before, foundBefore⟩ := taken_object covered pc here
  obtain ⟨tried, lists⟩ := tries_cases foundBefore tries
  have awake : view stateOf middle con ≠ some .idle := by
    rcases tries_reaches foundBefore tries found unfailed with state | state <;>
      simp [view, found, stateOf, state]
  have quietBefore : Silent service con := by
    refine .inr ?_
    rw [taken pc here]
    simp
  have now : Heard middle con :=
    heard_started tried (tuned.unheard con quietBefore) ((tried_here tried found).2 unfailed)
      foundBefore
  refine ⟨?_, ?_, ?_, ?_⟩
  · intro other answered
    by_cases hit : other = con
    · subst hit
      exact heard_same now rfl rfl
    · have earlier : Answered service other := by
        rcases answered with listed | gone
        · refine .inl ?_
          rw [← lists.connections]
          simp only [setConnections_items] at listed
          rcases pushed_items middle.mConnections con granted with more | same
          · rw [more] at listed
            exact (List.mem_append.mp listed).resolve_right fun last =>
              hit (List.mem_singleton.mp last)
          · exact same ▸ listed
        · exact .inr gone
      exact heard_same (heard other hit earlier) rfl rfl
  · intro other quiet
    obtain ⟨different, earlier⟩ := takeOver_silent quiet covered staged pc here tries lists.new
      rfl rfl rfl awake
    exact unheard_view (unheard other different earlier) rfl
  · intro other gone
    exact drained_shrinks (closed other gone).2.1 (keeps_objects rfl) (shrinks_table rfl) rfl
  · intro other gone
    exact (closed other gone).2.2

end TakingOver

/-- A read concerns the connection found by its number; a connection closed because of its
peer has no socket left to read from. -/
theorem read_routed {number acquisition : Nat} {con : ConRef} (alive : AllLive service.world)
    (roster : Roster service.world none) (tuned : Tuned service)
    (isOpen : service.world.table.opened number = some acquisition) (answered : Answered service con) :
    ∀ fd, assigned service.world none (some con) = some fd →
      (fd.acquisition = acquisition ↔ service.world.conBySockDesc number = some con) := by
  intro fd remembers
  by_cases listed : con ∈ service.world.mConnections.items
  · exact lookup_owner roster alive isOpen listed remembers
  · obtain ⟨own, remembered, gone, _⟩ := tuned.drained con (answered.resolve_left listed)
    rw [remembers, Option.some.injEq] at remembered
    subst remembered
    refine ⟨fun hit => absurd (hit ▸ isOpen) (gone number), fun known => ?_⟩
    exact absurd known (lookup_unlisted roster alive listed)

theorem read_tuned {number count : Nat} {answer : Allocation} {world : World}
    (covered : Covered service) (staged : Staged service) (roster : Roster service.world none)
    (tuned : Tuned service) (stored : Stored service (.readData count answer))
    (pc : service.pc = .reading number)
    (reads : service.world.readData number count answer = some world) :
    Tuned { service with world := world } := by
  have alive := all_live covered roster (by rw [pc]; intro impossible; cases impossible)
  obtain ⟨listed, _⟩ := still_lists (show still service.pc = true by rw [pc]; rfl)
  obtain ⟨acquisition, isOpen, _, delivered⟩ := readData_cases service.world reads
  obtain ⟨granted, addressable⟩ := stored _ rfl
  have lists := (readData_references reads).lists
  have states := (neutral_states reads).1
  have unmoved : ∀ con, con ∉ registered service →
      view receipt world con = view receipt service.world con := by
    intro con absent
    rcases delivered with ⟨_, rfl⟩ | ⟨target, object, queue, known, _, _, rfl⟩
    · rfl
    · have different : con ≠ target := by
        rintro rfl
        exact absent (listed ▸ found_listed known)
      exact view_other _ different
  refine ⟨?_, ?_, ?_, ?_⟩
  · intro con answered
    have before : Answered service con := by
      refine answered.imp (fun here => ?_) id
      rw [← lists.connections]
      exact here
    exact readData_heard reads granted (addressable number (by rw [pc]; rfl)) isOpen
      (read_routed alive roster tuned isOpen before) (tuned.heard con before)
  · intro con quiet
    have before : Silent service con :=
      silent_same quiet states rfl (by simp only [waiting, pc, lists.new])
    exact unheard_view (tuned.unheard con before)
      (unmoved con fun member => served_unsilent staged member before)
  · intro con gone
    exact drained_readData reads (tuned.drained con gone)
  · intro con gone
    exact (congrFun states con).trans (tuned.failed con gone)

theorem connectBegun_tuned {con : ConRef} {addr : List Byte} (roster : Roster service.world none)
    (tuned : Tuned service) (idle : IdleConnect service (.userConnect con addr))
    (begins : connectBegin service con addr = some after) : Tuned after := by
  obtain ⟨object, found, objects, lists, table, sockets⟩ := connectBegin_shape begins
  obtain ⟨_, _, connecting, pc, _, closed, others, now, _⟩ := connectBegin_states begins
  have isIdle : view stateOf service.world con = some .idle := by
    rw [view, found, Option.map_some, stateOf, idle con rfl object found]
  have same : view receipt after.world = view receipt service.world :=
    (view_objects objects).trans (view_put _ found rfl)
  have keeps := (connectBegin_roster idle roster begins).2
  refine tuned_frame tuned same sockets keeps (shrinks_table table) ?_ closed ?_ ?_
  · intro other member
    rwa [lists.connections] at member
  · intro other quiet
    by_cases hit : other = con
    · subst hit
      exact .inl isIdle
    · refine quiet.imp (fun here => (others other hit).symm.trans here) fun underway => ?_
      simp only [connecting, waiting, pc, lists.new, List.cons_append, List.mem_cons] at underway
      exact underway.resolve_left hit
  · intro other gone
    apply others
    rintro rfl
    have failed := tuned.failed other gone
    rw [isIdle] at failed
    cases failed

theorem established_tuned {con : ConRef} {number : Nat} {mask : EventMask}
    (staged : Staged service) (roster : Roster service.world none) (tuned : Tuned service)
    (pc : service.pc = .writable number mask) (member : con ∈ service.world.mConnections.items) :
    Tuned { service with
      world := service.world.setState con .established
      pc := .handling number mask } := by
  obtain ⟨listed, _⟩ := still_lists (show still service.pc = true by rw [pc]; rfl)
  obtain ⟨fd, serving⟩ := roster.serving con member
  have lists := setState_lists service.world con .established
  have same : view receipt (service.world.setState con .established) = view receipt service.world :=
    view_setState service.world con .established fun _ => rfl
  have now : view stateOf (service.world.setState con .established) con = some .established := by
    obtain ⟨object, found, _⟩ := serving_object serving
    exact setState_here .established (show view stateOf service.world con = _ by rw [view, found]; rfl)
  refine tuned_frame tuned same (setState_sockets _) (established_keeps serving).1
    (shrinks_table (setState_table _ _ _)) ?_ rfl ?_ ?_
  · intro other here
    rwa [lists.connections] at here
  · intro other quiet
    refine quiet.imp (fun idle => ?_) fun underway => ?_
    · have different : other ≠ con := by
        rintro rfl
        rw [show view stateOf (service.world.setState other .established) other = some .idle from
          idle] at now
        cases now
      exact (view_setState_other .established different).symm.trans idle
    · simpa only [waiting, pc, lists.new] using underway
  · intro other gone
    apply view_setState_other
    rintro rfl
    exact closed_unserved staged tuned gone (listed ▸ member)

theorem stop_tuned {cons : List ConRef} (tuned : Tuned service)
    (same : (stopStep service).world = service.world.destroyAll cons) : Tuned (stopStep service) := by
  have views : ∀ {Part : Type} {part : Object → Part}, Uncounted part →
      view part (stopStep service).world = view part service.world := by
    intro Part part uncounted
    rw [same]
    exact view_destroyAll uncounted service.world cons
  have states := views stateOf_uncounted
  refine tuned_frame tuned (views receipt_uncounted) ?_ ?_ ?_ ?_ rfl ?_ ?_
  · rw [same, destroyAll_sockets]
  · rw [same]
    exact destroyAll_keeps service.world cons
  · rw [same]
    exact destroyAll_shrinks service.world cons
  · intro con listed
    rw [same, (destroyAll_lists service.world cons).connections] at listed
    exact listed
  · intro con quiet
    refine quiet.imp (fun idle => (congrFun states con).symm.trans idle) fun underway => ?_
    simp only [waiting, stopStep, List.append_nil] at underway
    exact List.mem_append_left _ underway
  · exact fun con _ => congrFun states con

theorem userRead_tuned {con : ConRef} {dst : List Byte} {world : World} (tuned : Tuned service)
    (reads : service.world.userRead con dst = some world) :
    Tuned { service with world := world } := by
  have neutral := neutral_userRead reads
  have lists := (userRead_references reads).lists
  have untouched : view stateOf world = view stateOf service.world ∧
      world.sockets = service.world.sockets := by
    obtain ⟨object, _, _, _, _, found, _, rfl⟩ := userRead_cases service.world reads
    exact ⟨view_put _ found rfl, rfl⟩
  obtain ⟨states, sockets⟩ := untouched
  refine ⟨?_, ?_, ?_, ?_⟩
  · intro other answered
    refine userRead_heard reads (tuned.heard other ?_)
    refine answered.imp (fun here => ?_) id
    rw [← lists.connections]
    exact here
  · intro other quiet
    refine unheard_userRead reads (tuned.unheard other ?_)
    exact silent_same quiet states rfl (by simp only [waiting, lists.new])
  · intro other gone
    exact drained_shrinks (tuned.drained other gone) neutral.keeps (shrinks_table neutral.table)
      sockets
  · intro other gone
    exact (congrFun states other).trans (tuned.failed other gone)

theorem arrived_tuned {number : Nat} {bytes : List Byte} {world : World} (tuned : Tuned service)
    (arrives : service.world.arrive number bytes = some world) :
    Tuned { service with world := world } := by
  have heard : ∀ con, Answered service con → Heard world con :=
    fun con answered => arrive_heard arrives (tuned.heard con answered)
  have drained : ∀ con ∈ service.closedByPeer, Drained world con :=
    fun con gone => drained_arrive arrives (tuned.drained con gone)
  obtain ⟨_, _, rfl⟩ := Option.map_eq_some_iff.mp arrives
  exact ⟨heard, tuned.unheard, drained, tuned.failed⟩

theorem step_tuned (covered : Covered service) (staged : Staged service)
    (roster : Roster service.world none) (quietly : EmptyAtHangUp service label)
    (stepped : step service label = some after) (tuned : Tuned service) : Tuned after := by
  cases step_moved stepped with
  | closed number peer pc closing isStill asked cause =>
      exact closed_tuned covered roster tuned quietly closing isStill cause
  | turned pc before isStill =>
      obtain ⟨_, new⟩ := still_lists before
      obtain ⟨_, newAfter⟩ :=
        still_lists (show still ({ service with pc := pc } : Service).pc = true from isStill)
      exact tuned_frame tuned rfl rfl (keeps_objects rfl) (shrinks_table rfl) (fun _ here => here) rfl
        (fun _ quiet => silent_same quiet rfl rfl (newAfter.trans new.symm)) fun _ _ => rfl
  | created _ creates => exact created_tuned covered roster tuned creates
  | began pc =>
      exact tuned_frame tuned rfl rfl (keeps_objects rfl) (shrinks_table rfl) (fun _ here => here) rfl
        (fun _ quiet => silent_same quiet rfl rfl (by simp [waiting, pc])) fun _ _ => rfl
  | gaveUp index con middle object pc here tries found failed =>
      exact gaveUp_tuned covered staged roster tuned pc here tries found failed
  | tookOver index con middle object pc here tries found unfailed =>
      exact tookOver_tuned covered staged roster tuned pc here tries found unfailed _
  | cleared index pc finished =>
      refine tuned_frame tuned rfl rfl (keeps_objects rfl) (shrinks_table rfl) (fun _ here => here) rfl
        (fun con quiet => ?_) fun _ _ => rfl
      refine quiet.imp id fun underway => ?_
      simp only [waiting, setNew_items, Connections.clear, List.append_nil] at underway
      exact List.mem_append_left _ underway
  | established con number mask pc known =>
      exact established_tuned staged roster tuned pc (found_listed known)
  | read number world pc reads =>
      exact read_tuned covered staged roster tuned quietly.stored pc reads
  | stopped pc =>
      obtain ⟨same, _⟩ := stop_unfailed covered staged pc
      exact stop_tuned tuned same
  | connectBegun _ begins => exact connectBegun_tuned roster tuned quietly.idle begins
  | @connectPushed con granted begun unlocked =>
      refine tuned_frame tuned rfl rfl (keeps_objects rfl) (shrinks_table rfl) (fun _ here => here) rfl
        (fun other quiet => ?_) fun _ _ => rfl
      refine quiet.imp id fun underway => ?_
      rcases List.mem_append.mp underway with calling | pushed
      · exact List.mem_append_left _ (List.mem_of_mem_erase calling)
      · rcases pushed_waiting con unlocked granted with more | same
        · rw [more] at pushed
          rcases List.mem_append.mp pushed with before | last
          · exact List.mem_append_right _ before
          · exact List.mem_append_left _ (List.mem_singleton.mp last ▸ begun)
        · exact List.mem_append_right _ (same ▸ pushed)
  | userRead world reads => exact userRead_tuned tuned reads
  | userDestroyed world destroys =>
      obtain ⟨listed, new, sockets, keeps, shrinks⟩ := userDestroy_effect destroys
      have states := userDestroy_views stateOf_uncounted destroys
      exact tuned_frame tuned (userDestroy_views receipt_uncounted destroys) sockets keeps shrinks
        (fun _ here => listed ▸ here) rfl
        (fun _ quiet => silent_same quiet states rfl (by simp only [waiting, new]))
        fun con _ => congrFun states con
  | arrived world arrives => exact arrived_tuned tuned arrives

theorem configured_tuned (mServiceId : Int) : Tuned (.configured mServiceId) := by
  refine ⟨?_, ?_, ?_, ?_⟩
  · intro con _ object found
    cases found
  · intro con _ object found
    cases found
  · intro con gone
    cases gone
  · intro con gone
    cases gone

theorem service_complete {mServiceId : Int} {service : Service}
    (run : GuardedRun step EmptyAtHangUp (.configured mServiceId) service) :
    ∀ con ∈ service.closedByPeer, Complete service.world con := by
  obtain ⟨_, tuned⟩ := run.invariant_with
    (fun service => Covered service ∧ Staged service ∧ Roster service.world none) Tuned
    (fun _ _ _ held quietly stepped => ⟨step_covered held.1 stepped,
      step_staged held.1 held.2.1 quietly.idle stepped,
      step_roster held.1 held.2.1 held.2.2 quietly.idle quietly.stale stepped⟩)
    (fun _ _ _ held tuned quietly stepped =>
      step_tuned held.1 held.2.1 held.2.2 quietly stepped tuned)
    ⟨configured_covered mServiceId, (configured_staged mServiceId).1, configured_roster mServiceId⟩
    (configured_tuned mServiceId)
  exact fun con gone => drained_complete (tuned.drained con gone) (tuned.heard con (.inr gone))

end Steps

end Libasock.ServiceDelivery
