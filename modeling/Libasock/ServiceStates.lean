import Libasock.ServiceReferences
import Libasock.RegisteredConnections
import Mathlib.Data.List.Chain

/-!
The states of a service's connections. A connection that `asock_connect` was
called for once, while it was `Idle`, is in one list at a time: on its way to
the push, waiting for its takeover, or registered; the list tells its state, and
every write to `m_state` follows an arrow of the diagram in `asock.h`.
-/

namespace Libasock.ServiceStates
open ByteBlocks GuardedRuns NumberReuse ReturnCodes TsqueueModel ConnectionObjects WorkerWorld
  ReferenceCounts SocketContents RegisteredConnections ServiceWorker ServiceReferences

def stateOf (object : Object) : AsockConState := object.con.mState

theorem stateOf_uncounted : Uncounted stateOf := ⟨fun _ _ => rfl, fun _ _ => rfl⟩

/-- The values `m_state` has had, from its first one on. -/
def visited (world : World) (con : ConRef) : List AsockConState :=
  .idle :: (world.stateLog.filter fun write => decide (write.con = con)).map fun write => write.new

/-- A write that changes nothing or follows the diagram. -/
def Arrow (old new : AsockConState) : Prop := old = new ∨ old.mayBecome new = true

structure Followed (world : World) : Prop where
  chain : ∀ con, (visited world con).IsChain Arrow
  current : ∀ con state, view stateOf world con = some state →
    (visited world con).getLast? = some state
  unborn : ∀ con, world.objects con = none → visited world con = [.idle]

section Writes

variable {world after : World} {con : ConRef}

theorem followed_same (followed : Followed world) (log : after.stateLog = world.stateLog)
    (same : view stateOf after = view stateOf world) : Followed after := by
  have equal : visited after = visited world := by
    funext con
    simp only [visited, log]
  refine ⟨fun con => equal ▸ followed.chain con, ?_, ?_⟩
  · intro con state here
    rw [equal]
    rw [same] at here
    exact followed.current con state here
  · intro con absent
    rw [equal]
    apply followed.unborn
    have nothing : view stateOf world con = none := by
      rw [← same]
      simp [view, absent]
    simpa [view] using nothing

/-- A write to `m_state` along an arrow. -/
theorem followed_setState {old : AsockConState} (new : AsockConState) (followed : Followed world)
    (here : view stateOf world con = some old) (arrow : Arrow old new) :
    Followed (world.setState con new) := by
  obtain ⟨object, found, same⟩ := Option.map_eq_some_iff.mp here
  have log : (world.setState con new).stateLog = world.stateLog ++ [⟨con, old, new⟩] := by
    rw [← same]
    simp [World.setState, found, stateOf]
  have own : visited (world.setState con new) con = visited world con ++ [new] := by
    simp [visited, log, List.filter_append]
  have others : ∀ other, other ≠ con →
      visited (world.setState con new) other = visited world other := by
    intro other different
    simp [visited, log, List.filter_append, Ne.symm different]
  have last := followed.current con old here
  refine ⟨?_, ?_, ?_⟩
  · intro other
    by_cases hit : other = con
    · subst hit
      rw [own]
      refine (followed.chain other).append (List.isChain_singleton new) ?_
      intro first isLast second isHead
      rw [last] at isLast
      cases isLast
      cases isHead
      exact arrow
    · rw [others other hit]
      exact followed.chain other
  · intro other state present
    by_cases hit : other = con
    · subst hit
      rw [own, List.getLast?_concat]
      simpa [view, World.setState, found, World.put, stateOf] using present
    · rw [others other hit]
      rw [view_setState_other new hit] at present
      exact followed.current other state present
  · intro other absent
    have unknown : world.objects other = none := by
      have missing : ((world.setState con new).objects other).isSome =
          (world.objects other).isSome := setState_isSome new
      rw [absent] at missing
      simpa using missing.symm
    have different : other ≠ con := by
      rintro rfl
      rw [found] at unknown
      cases unknown
    rw [others other different]
    exact followed.unborn other unknown

theorem close_log (world : World) (fd : Option Descriptor) :
    (world.close fd).stateLog = world.stateLog := by
  cases fd <;> rfl

theorem destroy_log (world : World) (con : ConRef) :
    (world.destroyAsock con).stateLog = world.stateLog := by
  unfold World.destroyAsock
  split
  · rfl
  · split
    · exact close_log _ _
    · rfl

theorem destroyAll_log (world : World) (cons : List ConRef) :
    (world.destroyAll cons).stateLog = world.stateLog := by
  induction cons with
  | nil => rfl
  | cons con rest ih => rw [destroyAll_cons, destroy_log, ih]

/-- A close writes `Failed` to the one connection it finds. -/
theorem followed_close {number : Nat} (followed : Followed world)
    (serving : ∀ con ∈ world.mConnections.items, ∃ state, view stateOf world con = some state ∧
      Arrow state .failed) : Followed (world.closeConnection number).2 := by
  have forgotten : Followed (world.forgetNew number) := by
    refine followed_same followed ?_ (view_objects (forgetNew_objects world number))
    unfold World.forgetNew
    split <;> rfl
  rcases close_cases world number with ⟨_, same⟩ | ⟨con, index, _, here, _, same⟩
  · rw [same]
    exact forgotten
  · obtain ⟨state, present, arrow⟩ := serving con (List.mem_of_getElem? here)
    have there : view stateOf (world.forgetNew number) con = some state := by
      rw [view_objects (forgetNew_objects world number)]
      exact present
    have failed := followed_setState .failed forgotten there arrow
    rw [same]
    refine followed_same failed ?_ ?_
    · simp only [World.closeAt, World.setConnections, destroy_log, close_log]
    · simp only [World.closeAt]
      rw [view_objects (setConnections_objects _ _), view_destroy stateOf_uncounted,
        view_objects (close_objects _)]

theorem close_states {number : Nat} {other : ConRef}
    (spared : world.conBySockDesc number ≠ some other) :
    view stateOf (world.closeConnection number).2 other = view stateOf world other := by
  have forgotten : view stateOf (world.forgetNew number) = view stateOf world :=
    view_objects (forgetNew_objects world number)
  rcases close_cases world number with ⟨_, same⟩ | ⟨con, index, known, _, _, same⟩
  · rw [same, forgotten]
  · have different : other ≠ con := by
      rintro rfl
      exact spared known
    rw [same]
    simp only [World.closeAt]
    rw [view_objects (setConnections_objects _ _), view_destroy stateOf_uncounted,
      view_objects (close_objects _), view_setState_other .failed different, forgotten]

theorem setSockDesc_followed (con : ConRef) (fd : Option Descriptor) (followed : Followed world) :
    Followed (setSockDesc world con fd) := by
  unfold setSockDesc
  split
  · exact followed
  · rename_i object found
    exact followed_same followed rfl (view_put _ found rfl)

theorem setSockDesc_states (world : World) (con : ConRef) (fd : Option Descriptor) :
    view stateOf (setSockDesc world con fd) = view stateOf world := by
  unfold setSockDesc
  split
  · rfl
  · rename_i object found
    exact view_put _ found rfl

theorem setState_here {old : AsockConState} (new : AsockConState) (here : view stateOf world con = some old) :
    view stateOf (world.setState con new) con = some new := by
  obtain ⟨object, found, _⟩ := Option.map_eq_some_iff.mp here
  simp [view, World.setState, found, World.put, stateOf]

theorem giveUp_followed {old : AsockConState} {fd : Descriptor} (followed : Followed world)
    (here : view stateOf world con = some old) (arrow : Arrow old .failed) :
    Followed (giveUp world con fd) := by
  have closed : Followed (world.close (some fd)) :=
    followed_same followed (close_log _ _) (view_objects (close_objects _))
  have there : view stateOf (world.close (some fd)) con = some old := by
    rw [view_objects (close_objects _)]
    exact here
  exact setSockDesc_followed con none (followed_setState .failed closed there arrow)

theorem tries_followed {outcome : ConnectOutcome} (followed : Followed world)
    (here : view stateOf world con = some .inProgress)
    (tries : tryConnectToPeer world con outcome = some after) : Followed after := by
  have begun := followed_setState .inProgress followed here (.inl rfl)
  have there := setState_here .inProgress here
  have fails : Arrow .inProgress .failed := .inr rfl
  unfold tryConnectToPeer at tries
  cases outcome with
  | socketFailed =>
      cases tries
      exact setSockDesc_followed con none (followed_setState .failed begun there fails)
  | opened number attempt =>
      simp only [Option.bind_eq_bind, Option.bind_eq_some_iff] at tries
      obtain ⟨⟨fd, acquired⟩, acquires, result⟩ := tries
      obtain ⟨objects, _⟩ := acquire_effect acquires
      have log : acquired.stateLog = (world.setState con .inProgress).stateLog := by
        obtain ⟨_, _, same⟩ := Option.map_eq_some_iff.mp acquires
        cases same
        rfl
      have given := setSockDesc_followed con (some fd)
        (followed_same begun log (view_objects objects))
      have stays : view stateOf (setSockDesc acquired con (some fd)) con = some .inProgress := by
        rw [setSockDesc_states, view_objects objects]
        exact there
      cases attempt with
      | nonBlockingFailed =>
          cases result
          exact giveUp_followed given stays fails
      | connectFailed =>
          cases result
          exact giveUp_followed given stays fails
      | started established watched =>
          have reached := followed_setState .established given stays (.inr rfl)
          have now := setState_here .established stays
          cases established <;> cases watched <;> cases result
          · exact giveUp_followed given stays fails
          · exact given
          · exact giveUp_followed reached now (.inr rfl)
          · exact reached

theorem tries_states {outcome : ConnectOutcome} {object : Object}
    (found : world.objects con = some object)
    (tries : tryConnectToPeer world con outcome = some after) {other : ConRef}
    (different : other ≠ con) : view stateOf after other = view stateOf world other := by
  have apart : ∀ state fd, after.objects = (world.put con (attempted object state fd)).objects →
      view stateOf after other = view stateOf world other := by
    intro state fd objects
    rw [view_objects objects, view_other _ different]
  cases (tries_cases found tries).1 with
  | refused objects => exact apart _ _ objects
  | abandoned _ objects => exact apart _ _ objects
  | started _ _ _ objects => exact apart _ _ objects

/-- An attempt that does not fail leaves the connection in progress or established. -/
theorem tries_reaches {outcome : ConnectOutcome} {object tried : Object}
    (found : world.objects con = some object)
    (tries : tryConnectToPeer world con outcome = some after)
    (foundTried : after.objects con = some tried) (unfailed : tried.con.mState ≠ .failed) :
    tried.con.mState = .inProgress ∨ tried.con.mState = .established := by
  have same : ∀ state fd, after.objects = (world.put con (attempted object state fd)).objects →
      tried.con.mState = state := by
    intro state fd objects
    rw [objects, put_here, Option.some.injEq] at foundTried
    subst foundTried
    rfl
  cases (tries_cases found tries).1 with
  | refused objects => exact absurd (same _ _ objects) unfailed
  | abandoned _ objects => exact absurd (same _ _ objects) unfailed
  | started state _ begun objects =>
      rw [same state _ objects]
      exact begun

end Writes

section Stages

/-- `asock_connect` gets past its checks only for an `Idle` connection. -/
def IdleConnect (service : Service) (label : Label) : Prop :=
  ∀ con ∈ label.connected, ∀ object ∈ service.world.objects con, object.con.mState = .idle

instance (service : Service) (label : Label) : Decidable (IdleConnect service label) :=
  inferInstanceAs (Decidable (∀ con ∈ label.connected, ∀ object ∈ service.world.objects con,
    object.con.mState = .idle))

def Served (world : World) (con : ConRef) : Prop :=
  view stateOf world con = some .inProgress ∨ view stateOf world con = some .established

structure Staged (service : Service) : Prop where
  single : (service.connecting ++ waiting service ++ registered service).Nodup
  underway : ∀ con ∈ service.connecting ++ waiting service,
    view stateOf service.world con = some .inProgress
  served : ∀ con ∈ registered service, Served service.world con

variable {service after : Service} {label : Label}

theorem served_fails {world : World} {con : ConRef} (served : Served world con) :
    ∃ state, view stateOf world con = some state ∧ Arrow state .failed := by
  rcases served with here | here
  · exact ⟨_, here, .inr rfl⟩
  · exact ⟨_, here, .inr rfl⟩

/-- Entries may leave a list, as long as those that stay keep their states. -/
theorem staged_fewer (staged : Staged service)
    (connecting : after.connecting.Sublist service.connecting)
    (waitingLeft : (waiting after).Sublist (waiting service))
    (listedLeft : (registered after).Sublist (registered service))
    (same : ∀ con ∈ after.connecting ++ waiting after ++ registered after,
      view stateOf after.world con = view stateOf service.world con) : Staged after := by
  have front := connecting.append waitingLeft
  refine ⟨staged.single.sublist (front.append listedLeft), ?_, ?_⟩
  · intro con member
    rw [same con (List.mem_append_left _ member)]
    exact staged.underway con (front.subset member)
  · intro con member
    have kept := same con (List.mem_append_right _ member)
    exact (staged.served con (listedLeft.subset member)).imp kept.trans kept.trans

theorem staged_same (staged : Staged service) (connecting : after.connecting = service.connecting)
    (waitingLeft : waiting after = waiting service)
    (listedLeft : registered after = registered service)
    (same : view stateOf after.world = view stateOf service.world) : Staged after :=
  staged_fewer staged (connecting ▸ List.Sublist.refl _) (waitingLeft ▸ List.Sublist.refl _)
    (listedLeft ▸ List.Sublist.refl _) fun con _ => by rw [same]

theorem staged_place (staged : Staged service) (lists : SameLists service.world after.world)
    (connecting : after.connecting = service.connecting) (pc : after.pc = service.pc)
    (same : view stateOf after.world = view stateOf service.world) : Staged after := by
  apply staged_same staged connecting _ _ same
  · simp only [waiting, pc, lists.new]
  · simp only [registered, pc, lists.connections]

theorem forgetNew_sublist (world : World) (number : Nat) :
    (world.forgetNew number).mNewConnections.items.Sublist world.mNewConnections.items := by
  unfold World.forgetNew
  split
  · exact List.Sublist.refl _
  · exact List.eraseIdx_sublist _ _

/-- A close takes an entry out before it drops that entry's reference. -/
theorem half_staged (staged : Staged service) (closing : mayClose service.pc = true)
    (number : Nat) (peer : Bool) {pc : Pc} (isStill : still pc = true) :
    Staged { closeNumber service number peer pc with
      world := halfClosed service.world number } := by
  obtain ⟨listed, new⟩ := still_lists (mayClose_still closing)
  let half : Service := { closeNumber service number peer pc with
    world := halfClosed service.world number }
  obtain ⟨listedAfter, newAfter⟩ := still_lists (show still half.pc = true from isStill)
  have newFewer : (waiting half).Sublist (waiting service) := by
    obtain ⟨_, _, shorter, _⟩ := half_counts service.world number 0
    rw [newAfter, new]
    exact shorter ▸ forgetNew_sublist service.world number
  obtain ⟨unknown, _, same⟩ | ⟨con, index, _, _, known, here, _, _, _, _, same⟩ :=
    half_found service.world number
  · refine staged_fewer staged (List.Sublist.refl _) newFewer ?_ ?_
    · rw [listedAfter, listed, show half.world = _ from same, forgetNew_connections]
    · intro other _
      apply half_views
      rw [unknown]
      intro impossible
      cases impossible
  · have items : registered half = service.world.mConnections.items.eraseIdx index := by
      rw [listedAfter, show half.world = _ from same]
      rfl
    have member : con ∈ registered service := by
      rw [listed]
      exact List.mem_of_getElem? here
    obtain ⟨_, listedOnce, apart⟩ := List.nodup_append.mp staged.single
    refine staged_fewer staged (List.Sublist.refl _) newFewer ?_ ?_
    · rw [items, listed]
      exact List.eraseIdx_sublist _ _
    · intro other stays
      apply half_views
      rintro hit
      rw [known, Option.some.injEq] at hit
      subst hit
      rcases List.mem_append.mp stays with front | back
      · have before : con ∈ service.connecting ++ waiting service :=
          ((List.Sublist.refl _).append newFewer).subset front
        exact apart con before con member rfl
      · rw [items] at back
        exact erased_absent (listed ▸ listedOnce) here back

theorem destroy_staged (staged : Staged service) (con : ConRef) :
    Staged { service with world := service.world.destroyAsock con } :=
  @staged_place service { service with world := service.world.destroyAsock con } staged
    (destroy_lists service.world con) rfl rfl (view_destroy stateOf_uncounted service.world con)

theorem closeNumber_staged (staged : Staged service) (closing : mayClose service.pc = true)
    (number : Nat) (peer : Bool) {pc : Pc} (isStill : still pc = true) :
    Staged (closeNumber service number peer pc) := by
  have half := half_staged staged closing number peer isStill
  show Staged { closeNumber service number peer pc with
    world := (service.world.closeConnection number).2 }
  rw [close_half]
  cases (service.world.shut number).1 with
  | none => exact half
  | some entry => exact destroy_staged half entry.1

section TakingOver

variable {index : Nat} {con : ConRef} {middle : World} {outcome : ConnectOutcome}

/-- The entry a takeover is about is in no other place. -/
theorem taken_apart (staged : Staged service) (pc : service.pc = .takingOver index)
    (here : service.world.mNewConnections.items[index]? = some con) :
    (service.connecting ++ service.world.mNewConnections.items.drop (index + 1) ++
      registered service).Nodup ∧
    con ∉ service.connecting ++ service.world.mNewConnections.items.drop (index + 1) ++
      registered service := by
  have single := staged.single
  rw [taken pc here] at single
  have moved : (service.connecting ++ con :: service.world.mNewConnections.items.drop (index + 1) ++
      registered service).Perm (con :: (service.connecting ++
        service.world.mNewConnections.items.drop (index + 1) ++ registered service)) := by
    simp only [List.append_assoc, List.cons_append]
    exact List.perm_middle
  obtain ⟨absent, rest⟩ := List.nodup_cons.mp (moved.nodup_iff.mp single)
  exact ⟨rest, absent⟩

theorem takeOver_after (pc : service.pc = .takingOver index) (world : World)
    (lists : world.mNewConnections = service.world.mNewConnections) :
    waiting { service with world := world, pc := .takingOver (index + 1) } =
      service.world.mNewConnections.items.drop (index + 1) ∧
    registered service = service.world.mConnections.items := by
  simp only [waiting, registered, lists, pc, and_self]

theorem gaveUp_staged (covered : Covered service) (staged : Staged service)
    (pc : service.pc = .takingOver index)
    (here : service.world.mNewConnections.items[index]? = some con)
    (tries : tryConnectToPeer service.world con outcome = some middle) :
    Staged { service with world := middle.destroyAsock con, pc := .takingOver (index + 1) } := by
  obtain ⟨object, found⟩ := taken_object covered pc here
  have lists := (tries_cases found tries).2.trans (destroy_lists middle con)
  obtain ⟨left, listed⟩ := takeOver_after pc _ lists.new
  obtain ⟨_, absent⟩ := taken_apart staged pc here
  have same : registered { service with
      world := middle.destroyAsock con, pc := .takingOver (index + 1) } = registered service := by
    rw [listed]
    simp only [registered, lists.connections]
  refine staged_fewer staged (List.Sublist.refl _) ?_ (same ▸ List.Sublist.refl _) ?_
  · rw [left, taken pc here]
    exact List.sublist_cons_self _ _
  · intro other member
    rw [left, same] at member
    have different : other ≠ con := by
      rintro rfl
      exact absent member
    rw [view_destroy stateOf_uncounted]
    exact tries_states found tries different

theorem tookOver_staged (covered : Covered service) (staged : Staged service)
    (pc : service.pc = .takingOver index)
    (here : service.world.mNewConnections.items[index]? = some con)
    (tries : tryConnectToPeer service.world con outcome = some middle) {tried : Object}
    (foundTried : middle.objects con = some tried) (unfailed : tried.con.mState ≠ .failed)
    (granted : Bool) :
    Staged { service with
      world := middle.setConnections (middle.mConnections.push con granted).2
      pc := .takingOver (index + 1) } := by
  obtain ⟨object, found⟩ := taken_object covered pc here
  have lists := (tries_cases found tries).2
  obtain ⟨left, listed⟩ :=
    takeOver_after pc (middle.setConnections (middle.mConnections.push con granted).2) lists.new
  obtain ⟨rest, absent⟩ := taken_apart staged pc here
  have spared : ∀ other ∈ service.connecting ++
      service.world.mNewConnections.items.drop (index + 1) ++ registered service,
      view stateOf middle other = view stateOf service.world other := by
    intro other member
    apply tries_states found tries
    rintro rfl
    exact absent member
  -- an attempt that has not failed leaves the connection in one of the two served states
  have now : Served middle con := by
    have present : view stateOf middle con = some tried.con.mState := by simp [view, foundTried, stateOf]
    rcases tries_reaches found tries foundTried unfailed with reached | reached
    · exact .inl (by rw [present, reached])
    · exact .inr (by rw [present, reached])
  have pushed : registered { service with
      world := middle.setConnections (middle.mConnections.push con granted).2
      pc := .takingOver (index + 1) } = registered service ++ [con] ∨
      registered { service with
        world := middle.setConnections (middle.mConnections.push con granted).2
        pc := .takingOver (index + 1) } = registered service := by
    rw [listed]
    simp only [registered, setConnections_items, lists.connections]
    exact pushed_items _ _ _
  refine ⟨?_, ?_, ?_⟩
  · rw [left]
    rcases pushed with more | same
    · rw [more, ← List.append_assoc, List.nodup_append_comm]
      exact List.nodup_cons.mpr ⟨absent, rest⟩
    · rw [same]
      exact rest
  · intro other member
    rw [left] at member
    have before : other ∈ service.connecting ++ waiting service := by
      rw [taken pc here]
      exact ((List.Sublist.refl _).append (List.sublist_cons_self _ _)).subset member
    exact (spared other (List.mem_append_left _ member)).trans (staged.underway other before)
  · intro other member
    have old : other ∈ registered service → Served middle other := by
      intro before
      have kept := spared other (List.mem_append_right _ before)
      exact (staged.served other before).imp kept.trans kept.trans
    rcases pushed with more | same
    · rw [more, List.mem_append, List.mem_singleton] at member
      rcases member with before | rfl
      · exact old before
      · exact now
    · exact old (same ▸ member)

end TakingOver

section UserSteps

variable {con : ConRef}

theorem connectBegin_states {addr : List Byte} (begins : connectBegin service con addr = some after) :
    ∃ object, service.world.objects con = some object ∧
      after.connecting = con :: service.connecting ∧ after.pc = service.pc ∧
      SameLists service.world after.world ∧
      after.closedByPeer = service.closedByPeer ∧
      (∀ other, other ≠ con →
        view stateOf after.world other = view stateOf service.world other) ∧
      view stateOf after.world con = some .inProgress ∧
      (Followed service.world → Arrow object.con.mState .inProgress → Followed after.world) := by
  simp only [connectBegin, Option.bind_eq_bind, Option.bind_eq_some_iff] at begins
  obtain ⟨object, found, result⟩ := begins
  cases result
  have lists := (put_lists service.world con (addressed object addr service.mServiceId)).trans
    ((setState_lists _ con .inProgress).trans (incr_lists _ con))
  have written : view stateOf (service.world.put con (addressed object addr service.mServiceId)) =
      view stateOf service.world := view_put _ found rfl
  have old : view stateOf service.world con = some object.con.mState := by
    simp [view, found, stateOf]
  have present : view stateOf (service.world.put con (addressed object addr service.mServiceId)) con =
      some object.con.mState := by rw [written, old]
  refine ⟨object, found, rfl, rfl, lists, rfl, ?_, ?_, ?_⟩
  · intro other different
    simp only
    rw [view_incr stateOf_uncounted, view_setState_other _ different, written]
  · simp only
    rw [view_incr stateOf_uncounted]
    exact setState_here .inProgress present
  · intro followed arrow
    have readdressed : Followed
        (service.world.put con (addressed object addr service.mServiceId)) :=
      followed_same followed rfl written
    have begun := followed_setState .inProgress readdressed present arrow
    refine followed_same begun ?_ (view_incr stateOf_uncounted _ con)
    unfold World.counterIncr
    split <;> rfl

theorem connectBegin_staged {addr : List Byte} (staged : Staged service)
    (idle : IdleConnect service (.userConnect con addr))
    (begins : connectBegin service con addr = some after) : Staged after := by
  obtain ⟨object, found, connecting, pc, lists, _, others, now, _⟩ := connectBegin_states begins
  have isIdle : view stateOf service.world con = some .idle := by
    rw [view, found, Option.map_some, stateOf, idle con rfl object found]
  have listed : registered after = registered service := by
    simp only [registered, pc, lists.connections]
  have new : waiting after = waiting service := by simp only [waiting, pc, lists.new]
  have absent : con ∉ service.connecting ++ waiting service ++ registered service := by
    intro member
    rcases List.mem_append.mp member with front | back
    · have state := staged.underway con front
      rw [isIdle] at state
      cases state
    · rcases staged.served con back with state | state <;>
        (rw [isIdle] at state; cases state)
  have spared : ∀ other ∈ service.connecting ++ waiting service ++ registered service,
      view stateOf after.world other = view stateOf service.world other := by
    intro other member
    apply others
    rintro rfl
    exact absent member
  refine ⟨?_, ?_, ?_⟩
  · rw [connecting, new, listed]
    exact List.nodup_cons.mpr ⟨absent, staged.single⟩
  · intro other member
    rw [connecting, new, List.cons_append, List.mem_cons] at member
    rcases member with rfl | before
    · exact now
    · exact (spared other (List.mem_append_left _ before)).trans (staged.underway other before)
  · intro other member
    rw [listed] at member
    have kept := spared other (List.mem_append_right _ member)
    exact (staged.served other member).imp kept.trans kept.trans

theorem pushed_waiting (con : ConRef) (unlocked : locked service.pc = false) (granted : Bool) :
    waiting (connectPush service con granted) = waiting service ++ [con] ∨
      waiting (connectPush service con granted) = waiting service := by
  cases pc : service.pc with
  | stopped => exact .inr (by simp only [waiting, connectPush, pc])
  | takingOver index => simp [pc, locked] at unlocked
  | configuring | ready | writable number mask | handling number mask | reading number =>
      simp only [waiting, connectPush, pc, setNew_items]
      exact pushed_items _ _ _

theorem connectPush_staged (staged : Staged service) (begun : con ∈ service.connecting)
    (unlocked : locked service.pc = false) (granted : Bool) :
    Staged (connectPush service con granted) := by
  have listed : registered (connectPush service con granted) = registered service := rfl
  have fewer : (connectPush service con granted).connecting.Sublist service.connecting :=
    List.erase_sublist
  rcases pushed_waiting con unlocked granted with more | same
  · have moved : (service.connecting.erase con ++ (waiting service ++ [con]) ++
        registered service).Perm (service.connecting ++ waiting service ++ registered service) := by
      apply List.Perm.append_right
      have first : (service.connecting.erase con ++ (waiting service ++ [con])).Perm
          (con :: service.connecting.erase con ++ waiting service) := by
        rw [← List.append_assoc]
        exact List.perm_append_singleton _ _
      exact first.trans ((List.perm_cons_erase begun).symm.append_right _)
    refine ⟨?_, ?_, staged.served⟩
    · rw [more, listed]
      exact moved.nodup_iff.mpr staged.single
    · intro other member
      rw [more] at member
      apply staged.underway other
      simp only [List.mem_append, List.mem_singleton] at member ⊢
      rcases member with before | before | rfl
      · exact .inl (List.mem_of_mem_erase before)
      · exact .inr before
      · exact .inl begun
  · exact staged_fewer staged fewer (same ▸ List.Sublist.refl _) (listed ▸ List.Sublist.refl _)
      fun _ _ => rfl

theorem created_states {number : Nat} {answers : ObjectAnswers}
    (creates : createAsockStep service number answers = some after) :
    after.pc = service.pc ∧ after.connecting = service.connecting ∧
      after.closedByPeer = service.closedByPeer ∧
      after.world.mConnections = service.world.mConnections ∧
      after.world.mNewConnections = service.world.mNewConnections ∧
      after.world.stateLog = service.world.stateLog ∧
      (view stateOf after.world = view stateOf service.world ∨
        (view stateOf after.world service.world.created = some .idle ∧
          ∀ other, other ≠ service.world.created →
            view stateOf after.world other = view stateOf service.world other)) := by
  obtain ⟨fd, world, acquires, made⟩ := created_cases creates
  have lists := (acquire_references acquires).lists
  have objects := (acquire_effect acquires).1
  have log : world.stateLog = service.world.stateLog := by
    obtain ⟨_, _, same⟩ := Option.map_eq_some_iff.mp acquires
    cases same
    rfl
  rcases made with rfl | ⟨made, fresh, rfl⟩
  · refine ⟨rfl, rfl, rfl, lists.connections, lists.new, log, .inl ?_⟩
    exact view_objects ((close_objects _).trans objects)
  · have idle := fresh.idle
    refine ⟨rfl, rfl, rfl, lists.connections, lists.new, log, .inr ⟨?_, ?_⟩⟩
    · rw [← lists.created]
      simp [view, added_here, stateOf, idle]
    · intro other different
      rw [← lists.created] at different
      rw [view_objects (setHeld_objects _ _), added_view made different, view_objects objects]

theorem created_staged {number : Nat} {answers : ObjectAnswers} (covered : Covered service)
    (staged : Staged service) (creates : createAsockStep service number answers = some after) :
    Staged after := by
  obtain ⟨pc, connecting, _, listed, new, _, states⟩ := created_states creates
  have sameWaiting : waiting after = waiting service := by simp only [waiting, pc, new]
  have sameListed : registered after = registered service := by simp only [registered, pc, listed]
  refine staged_fewer staged (connecting ▸ List.Sublist.refl _) (sameWaiting ▸ List.Sublist.refl _)
    (sameListed ▸ List.Sublist.refl _) ?_
  intro con member
  rw [connecting, sameWaiting, sameListed] at member
  rcases states with same | ⟨_, others⟩
  · rw [same]
  · apply others
    rintro rfl
    have present : ∃ state, view stateOf service.world service.world.created = some state := by
      rcases List.mem_append.mp member with front | back
      · exact ⟨_, staged.underway _ front⟩
      · rcases staged.served _ back with here | here <;> exact ⟨_, here⟩
    obtain ⟨state, here⟩ := present
    obtain ⟨object, found, _⟩ := Option.map_eq_some_iff.mp here
    rw [unborn_absent covered.placed] at found
    cases found

theorem created_followed {number : Nat} {answers : ObjectAnswers} (covered : Covered service)
    (followed : Followed service.world)
    (creates : createAsockStep service number answers = some after) : Followed after.world := by
  obtain ⟨_, _, _, _, _, log, same | ⟨born, others⟩⟩ := created_states creates
  · exact followed_same followed log same
  · have equal : visited after.world = visited service.world := by
      funext con
      simp only [visited, log]
    have unborn : visited service.world service.world.created = [.idle] :=
      followed.unborn _ (unborn_absent covered.placed)
    refine ⟨fun con => equal ▸ followed.chain con, ?_, ?_⟩
    · intro con state here
      rw [equal]
      by_cases hit : con = service.world.created
      · subst hit
        rw [born, Option.some.injEq] at here
        rw [unborn, ← here]
        rfl
      · rw [others con hit] at here
        exact followed.current con state here
    · intro con absent
      have different : con ≠ service.world.created := by
        rintro rfl
        simp [view, absent] at born
      have nothing : view stateOf service.world con = none := by
        rw [← others con different]
        simp [view, absent]
      rw [equal]
      exact followed.unborn con (by simpa [view] using nothing)

end UserSteps

section Runs

theorem neutral_states {world next : World} {number count : Nat} {answer : Allocation}
    (reads : world.readData number count answer = some next) :
    view stateOf next = view stateOf world ∧ next.stateLog = world.stateLog := by
  obtain ⟨acquisition, _, _, ⟨_, rfl⟩ | ⟨con, object, queue, _, found, _, rfl⟩⟩ :=
    readData_cases world reads
  · exact ⟨rfl, rfl⟩
  · exact ⟨view_put _ found rfl, rfl⟩

theorem step_staged (covered : Covered service) (staged : Staged service)
    (idle : IdleConnect service label) (stepped : step service label = some after) :
    Staged after := by
  cases step_moved stepped with
  | closed number peer pc closing isStill => exact closeNumber_staged staged closing number peer isStill
  | turned pc before isStill =>
      obtain ⟨listed, new⟩ := still_lists before
      obtain ⟨listedAfter, newAfter⟩ :=
        still_lists (show still ({ service with pc := pc } : Service).pc = true from isStill)
      exact staged_same staged rfl (newAfter.trans new.symm) (listedAfter.trans listed.symm) rfl
  | created _ creates => exact created_staged covered staged creates
  | began pc =>
      exact staged_same staged rfl (by simp [waiting, pc]) (by simp [registered, pc]) rfl
  | gaveUp index con middle object pc here tries => exact gaveUp_staged covered staged pc here tries
  | tookOver index con middle object pc here tries found unfailed =>
      exact tookOver_staged covered staged pc here tries found unfailed _
  | cleared index pc finished =>
      refine staged_fewer staged (List.Sublist.refl _) ?_ ?_ fun _ _ => rfl
      · simp [waiting, Connections.clear]
      · simp [registered, pc]
  | established con number mask pc known =>
      have isStill : still service.pc = true := by rw [pc]; rfl
      obtain ⟨listed, new⟩ := still_lists isStill
      have lists := setState_lists service.world con .established
      -- a registered connection waits nowhere
      obtain ⟨_, _, apart⟩ := List.nodup_append.mp staged.single
      have member : con ∈ registered service := listed ▸ found_listed known
      have sameWaiting : waiting { service with world := service.world.setState con .established
                                                pc := .handling number mask } = waiting service := by
        simp only [waiting, pc, lists.new]
      have sameListed : registered { service with
          world := service.world.setState con .established
          pc := .handling number mask } = registered service := by
        simp only [registered, pc, lists.connections]
      refine ⟨by rw [sameWaiting, sameListed]; exact staged.single, ?_, ?_⟩
      · intro other front
        rw [sameWaiting] at front
        have different : other ≠ con := fun hit => apart other front con member hit
        exact (view_setState_other _ different).trans (staged.underway other front)
      · intro other back
        rw [sameListed] at back
        by_cases hit : other = con
        · subst hit
          obtain ⟨state, here, _⟩ := served_fails (staged.served other back)
          exact .inr (setState_here .established here)
        · have kept : view stateOf (service.world.setState con .established) other =
              view stateOf service.world other := view_setState_other _ hit
          exact (staged.served other back).imp kept.trans kept.trans
  | read number world pc reads =>
      exact staged_place staged (readData_references reads).lists rfl rfl (neutral_states reads).1
  | stopped pc =>
      refine staged_fewer staged (List.Sublist.refl _) (List.nil_sublist _) (List.nil_sublist _) ?_
      intro con _
      simp only [stopStep]
      rw [view_destroyAll stateOf_uncounted, view_destroyAll stateOf_uncounted]
  | connectBegun _ begins => exact connectBegin_staged staged idle begins
  | connectPushed begun unlocked => exact connectPush_staged staged begun unlocked _
  | userRead world reads =>
      obtain ⟨object, _, _, _, _, found, _, rfl⟩ := userRead_cases service.world reads
      exact staged_same staged rfl rfl rfl (view_put _ found rfl)
  | userDestroyed world destroys =>
      obtain ⟨listed, new, _⟩ := userDestroy_effect destroys
      exact staged_same staged rfl (by simp only [waiting, new]) (by simp only [registered, listed])
        (userDestroy_views stateOf_uncounted destroys)
  | arrived world arrives =>
      obtain ⟨_, _, rfl⟩ := Option.map_eq_some_iff.mp arrives
      exact staged_same staged rfl rfl rfl rfl

theorem step_followed (covered : Covered service) (staged : Staged service)
    (idle : IdleConnect service label) (stepped : step service label = some after)
    (followed : Followed service.world) : Followed after.world := by
  have takes : ∀ {index con}, service.pc = .takingOver index →
      service.world.mNewConnections.items[index]? = some con →
      view stateOf service.world con = some .inProgress := by
    intro index con pc here
    apply staged.underway
    rw [taken pc here]
    simp
  cases step_moved stepped with
  | closed number peer pc closing isStill =>
      obtain ⟨listed, _⟩ := still_lists (mayClose_still closing)
      refine followed_close followed fun con member => ?_
      exact served_fails (staged.served con (listed ▸ member))
  | turned | began | cleared | connectPushed => exact followed_same followed rfl rfl
  | created _ creates => exact created_followed covered followed creates
  | gaveUp index con middle object pc here tries =>
      exact followed_same (tries_followed followed (takes pc here) tries) (destroy_log _ _)
        (view_destroy stateOf_uncounted _ _)
  | tookOver index con middle object pc here tries =>
      exact followed_same (tries_followed followed (takes pc here) tries) rfl rfl
  | established con number mask pc known =>
      obtain ⟨listed, _⟩ := still_lists (show still service.pc = true by rw [pc]; rfl)
      have member : con ∈ registered service := listed ▸ found_listed known
      rcases staged.served con member with here | here
      · exact followed_setState .established followed here (.inr rfl)
      · exact followed_setState .established followed here (.inl rfl)
  | read number world pc reads =>
      obtain ⟨same, log⟩ := neutral_states reads
      exact followed_same followed log same
  | stopped pc =>
      refine followed_same followed ?_ ?_
      · simp only [stopStep, destroyAll_log]
      · simp only [stopStep]
        rw [view_destroyAll stateOf_uncounted, view_destroyAll stateOf_uncounted]
  | @connectBegun con addr after holds begins =>
      obtain ⟨object, found, _, _, _, _, _, _, follows⟩ := connectBegin_states begins
      exact follows followed (by rw [idle con rfl object found]; exact .inr rfl)
  | userRead world reads =>
      obtain ⟨object, _, _, _, _, found, _, rfl⟩ := userRead_cases service.world reads
      exact followed_same followed rfl (view_put _ found rfl)
  | userDestroyed world destroys =>
      have same := userDestroy_views stateOf_uncounted destroys
      obtain ⟨_, rfl⟩ := userDestroy_cases _ destroys
      exact followed_same followed (destroy_log _ _) same
  | arrived world arrives =>
      obtain ⟨_, _, rfl⟩ := Option.map_eq_some_iff.mp arrives
      exact followed_same followed rfl rfl

theorem configured_staged (mServiceId : Int) :
    Staged (.configured mServiceId) ∧ Followed (Service.configured mServiceId).world := by
  refine ⟨⟨List.nodup_nil, ?_, ?_⟩, ⟨?_, ?_, fun _ _ => rfl⟩⟩
  · intro con member
    cases member
  · intro con member
    cases member
  · intro con
    exact List.isChain_singleton _
  · intro con state here
    cases here

end Runs

section Results

/-- The values `asock_state` has returned for a connection, up to the current one, start at
`Idle` and change along the arrows of the diagram only. -/
def DiagramFollowed (service : Service) : Prop :=
  ∀ con object, service.world.objects con = some object →
    (visited service.world con).IsChain Arrow ∧
      (visited service.world con).getLast? = some object.con.state

theorem states_follow_diagram (mServiceId : Int) (service : Service)
    (run : GuardedRun step IdleConnect (.configured mServiceId) service) :
    DiagramFollowed service := by
  obtain ⟨_, followed⟩ := run.invariant_with
    (fun service => Covered service ∧ Staged service) (fun service => Followed service.world)
    (fun _ _ _ held idle stepped => ⟨step_covered held.1 stepped,
      step_staged held.1 held.2 idle stepped⟩)
    (fun _ _ _ held followed idle stepped => step_followed held.1 held.2 idle stepped followed)
    ⟨configured_covered mServiceId, (configured_staged mServiceId).1⟩ (configured_staged mServiceId).2
  intro con object found
  exact ⟨followed.chain con, followed.current con _ (by simp [view, found, stateOf, Asock.state])⟩

def granted : ObjectAnswers := ⟨true, ⟨true, true, zeroed⟩, ⟨true, true, zeroed⟩⟩

/-- A connection is created, `asock_connect` succeeds for it and the peer accepts at once. -/
def connectOne (number opened con : Nat) : List Label :=
  [.createAsock number granted, .userConnect con [1], .userConnectPush con true, .beginPass,
    .takeOver (.opened opened (.started true true)) true, .endPass]

-- A second `asock_connect` takes an established connection back to `InProgress`.
theorem reconnect_leaves_diagram :
    ∃ service, Run step (.configured 1) service ∧ ¬ DiagramFollowed service := by
  obtain ⟨service, run, tested⟩ := replayed step (fun _ _ => True) (.configured 1)
    (.start :: connectOne 4 5 0 ++ [.userConnect 0 [1]])
    (fun service => (service.world.objects 0).isSome ∧ visited service.world 0 =
      [.idle, .inProgress, .inProgress, .established, .inProgress]) (by decide +kernel)
  obtain ⟨present, values⟩ := of_decide_eq_true tested
  obtain ⟨object, found⟩ := Option.isSome_iff_exists.mp present
  refine ⟨service, run, fun follows => ?_⟩
  have chain := (follows 0 object found).1
  rw [values] at chain
  simp [Arrow, AsockConState.mayBecome] at chain

theorem closed_connection_follows : ∃ service, Run step (.configured 1) service ∧
    visited service.world 0 = [.idle, .inProgress, .inProgress, .established, .failed] ∧
    DiagramFollowed service := by
  obtain ⟨service, run, tested⟩ := replayed step IdleConnect (.configured 1)
    (.start :: connectOne 4 5 0 ++ [.event 5 ⟨true, false, false, false, true⟩, .handle])
    (fun service => visited service.world 0 =
      [.idle, .inProgress, .inProgress, .established, .failed]) (by decide +kernel)
  exact ⟨service, run.weaken fun _ _ _ => trivial, of_decide_eq_true tested,
    states_follow_diagram 1 service run⟩

end Results

end Stages

end Libasock.ServiceStates
