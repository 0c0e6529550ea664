import Libasock.ServerDescriptors
import Libasock.ServiceStops

/-!
The stop of a server, in any run. A connection that a user has or will have is
served and counted twice or `Failed` and counted once; an accept iteration keeps
its own connection hidden until the second push.
-/

namespace Libasock.ServerStops
open ByteBlocks GuardedRuns NumberReuse ReturnCodes ConnectionObjects WorkerWorld ReferenceCounts
  SocketContents RegisteredConnections ServerWorker ServerReferences ServerDescriptors
  VisibleStops
open ServiceStates (stateOf stateOf_uncounted forgetNew_sublist)

section Accounts

variable {world : World} {con other : ConRef} {object : Object} {index : Nat}

/-- What the users' share in a connection depends on. -/
def account (object : Object) : Bool × Int × AsockConState :=
  (object.released, object.con.mRefCounter, object.con.mState)

theorem account_state {after : World} (same : view account after con = view account world con) :
    view stateOf after con = view stateOf world con := by
  have projected := congrArg (Option.map fun account => account.2.2) same
  simp only [view, Option.map_map] at projected
  exact projected

theorem view_elsewhere {Part : Type} {part : Object → Part} {after : World}
    (same : after.objects con = world.objects con) : view part after con = view part world con := by
  simp only [view, same]

theorem destroy_account {released : Bool} {count : Int} {state : AsockConState}
    (here : view account world con = some (released, count, state)) (shared : count ≠ 1) :
    view account (world.destroyAsock con) con = some (released, count - 1, state) := by
  obtain ⟨object, found, same⟩ := Option.map_eq_some_iff.mp here
  simp only [account, Prod.mk.injEq] at same
  obtain ⟨rfl, rfl, rfl⟩ := same
  have more : ¬ object.dropped.con.mRefCounter = 0 := by
    simp only [Object.dropped]
    omega
  simp only [World.destroyAsock, found, if_neg more]
  rw [view, put_here]
  rfl

theorem setState_account {released : Bool} {count : Int} {old : AsockConState}
    (new : AsockConState) (here : view account world con = some (released, count, old)) :
    view account (world.setState con new) con = some (released, count, new) := by
  obtain ⟨object, found, same⟩ := Option.map_eq_some_iff.mp here
  simp only [account, Prod.mk.injEq] at same
  obtain ⟨rfl, rfl, rfl⟩ := same
  simp [view, World.setState, found, World.put, account]

theorem incr_account {released : Bool} {count : Int} {state : AsockConState}
    (here : view account world con = some (released, count, state)) :
    view account (world.counterIncr con) con = some (released, count + 1, state) := by
  obtain ⟨object, found, same⟩ := Option.map_eq_some_iff.mp here
  simp only [account, Prod.mk.injEq] at same
  obtain ⟨rfl, rfl, rfl⟩ := same
  simp [view, World.counterIncr, found, World.put, account]

theorem incr_other (different : other ≠ con) :
    (world.counterIncr con).objects other = world.objects other := by
  unfold World.counterIncr
  split
  · rfl
  · simp [World.put, different]

theorem setState_other (state : AsockConState) (different : other ≠ con) :
    (world.setState con state).objects other = world.objects other := by
  unfold World.setState
  split
  · rfl
  · simp [World.put, different]

theorem closeAt_account {released : Bool} {count : Int} {state : AsockConState}
    (here : view account world con = some (released, count, state)) (shared : count ≠ 1) :
    view account (world.closeAt con index) con = some (released, count - 1, .failed) := by
  have failed := setState_account .failed here
  simp only [World.closeAt]
  rw [view_objects (setConnections_objects _ _)]
  refine destroy_account ?_ shared
  rw [view_objects (close_objects _)]
  exact failed

theorem closeAt_other (different : other ≠ con) :
    (world.closeAt con index).objects other = world.objects other := by
  simp only [World.closeAt, setConnections_objects]
  rw [destroy_other different, close_objects, setState_other .failed different]

end Accounts

variable {server after : Server} {label : Label} {con other : ConRef} {infd : Descriptor}

/-- A connection that a user has or will have: the user's reference, and the worker's as long as
it serves the connection. -/
def Shown (world : World) (pc : Pc) (con : ConRef) : Prop :=
  ∃ count state, view account world con = some (false, count, state) ∧
    count + pending pc con = 1 + world.mConnections.items.count con ∧
    (state = .failed ↔ con ∉ world.mConnections.items)

/-- A connection of an accept iteration that nobody else knows. -/
def Hidden (world : World) (con : ConRef) : Prop :=
  con ∉ world.held ++ world.mNewConnections.items ∧
    ∃ state, view account world con = some (false, 1, state) ∧ state ≠ .failed

def Unmarked (world : World) (con : ConRef) : Prop :=
  ∃ state, view stateOf world con = some state ∧ state ≠ .failed

structure Handed (world : World) (pc : Pc) : Prop where
  placed : ∀ con, (world.objects con).isSome ↔ con < world.created
  single : world.mConnections.items.Nodup
  unmarked : ∀ con ∈ world.mConnections.items, Unmarked world con
  visible : (world.held ++ world.mNewConnections.items).Nodup
  shown : ∀ con ∈ world.held ++ world.mNewConnections.items, Shown world pc con
  hidden : ∀ con infd, making pc = some (con, infd) → Hidden world con
  created : ∀ con infd, pc = .created con infd → con ∉ world.mConnections.items
  registered : ∀ con infd, pc = .registered con infd →
    ∃ front, world.mConnections.items = front ++ [con]

variable {world next : World} {pc nextPc : Pc}

section Frames

theorem account_known {released : Bool} {count : Int} {state : AsockConState}
    (handed : Handed world pc) (here : view account world con = some (released, count, state)) :
    con < world.created := by
  obtain ⟨object, found, _⟩ := Option.map_eq_some_iff.mp here
  exact (handed.placed con).mp (by rw [found]; rfl)

/-- Nobody new becomes visible. -/
theorem handed_frame (handed : Handed world pc) (same : view account next = view account world)
    (connections : next.mConnections.items = world.mConnections.items)
    (created : next.created = world.created)
    (visible : (next.held ++ next.mNewConnections.items).Nodup)
    (fewer : ∀ con ∈ next.held ++ next.mNewConnections.items,
      con ∈ world.held ++ world.mNewConnections.items) : Handed next pc := by
  constructor
  case placed =>
    intro con
    have known : (next.objects con).isSome = (world.objects con).isSome := by
      simpa [view] using congrArg Option.isSome (congrFun same con)
    rw [known, created]
    exact handed.placed con
  case single =>
    rw [connections]
    exact handed.single
  case unmarked =>
    rw [connections]
    intro con member
    rw [Unmarked, account_state (congrFun same con)]
    exact handed.unmarked con member
  case visible => exact visible
  case shown =>
    intro con member
    rw [Shown, same, connections]
    exact handed.shown con (fewer con member)
  case hidden =>
    intro con infd makes
    obtain ⟨unseen, fresh⟩ := handed.hidden con infd makes
    rw [Hidden, same]
    exact ⟨fun member => unseen (fewer con member), fresh⟩
  case created =>
    rw [connections]
    exact handed.created
  case registered =>
    rw [connections]
    exact handed.registered

theorem handed_same (handed : Handed world pc) (same : view account next = view account world)
    (lists : SameLists world next) : Handed next pc := by
  refine handed_frame handed same (congrArg Connections.items lists.connections) lists.created ?_ ?_
  · rw [lists.held, lists.new]
    exact handed.visible
  · rw [lists.held, lists.new]
    exact fun _ member => member

theorem quiet_pending (isQuiet : quiet pc = true) : pending pc con = 0 := by
  cases pc <;> simp_all [quiet, pending]

theorem handed_turn (handed : Handed world pc) (before : quiet pc = true)
    (isQuiet : quiet nextPc = true) : Handed world nextPc := by
  refine { handed with shown := ?_, hidden := ?_, created := ?_, registered := ?_ }
  · intro con member
    obtain ⟨count, state, here, level, fate⟩ := handed.shown con member
    rw [quiet_pending before] at level
    exact ⟨count, state, here, by rw [quiet_pending isQuiet]; exact level, fate⟩
  · intro con infd makes
    rw [(quiet_running isQuiet).2.1] at makes
    cases makes
  · intro con infd created
    rw [created] at isQuiet
    cases isQuiet
  · intro con infd registered
    rw [registered] at isQuiet
    cases isQuiet

end Frames

section Closing

theorem closeAt_handed {index : Nat} (handed : Handed world pc) (isQuiet : quiet pc = true)
    (here : world.mConnections.items[index]? = some con) :
    Handed (world.closeAt con index) pc := by
  have listed := List.mem_of_getElem? here
  obtain ⟨state, present, _⟩ := handed.unmarked con listed
  obtain ⟨object, found, _⟩ := Option.map_eq_some_iff.mp present
  have items := closeAt_items world con index
  obtain ⟨_, _, new, held, created, _⟩ := closeAt_counts con found here
  have known : ∀ other, ((world.closeAt con index).objects other).isSome =
      (world.objects other).isSome := fun other => (closeAt_counts other found here).2.2.2.2.2
  have kept : ∀ other, other ≠ con → view account (world.closeAt con index) other =
      view account world other := fun other different => view_elsewhere (closeAt_other different)
  have gone : con ∉ world.mConnections.items.eraseIdx index := erased_absent handed.single here
  have stays : ∀ other, other ≠ con → (other ∈ world.mConnections.items.eraseIdx index ↔
      other ∈ world.mConnections.items) := by
    intro other different
    have counts := count_eraseIdx other here
    rw [if_neg different] at counts
    rw [← List.count_pos_iff, ← List.count_pos_iff]
    omega
  constructor
  case placed =>
    intro other
    rw [known, created]
    exact handed.placed other
  case single =>
    rw [items]
    exact handed.single.eraseIdx index
  case unmarked =>
    intro other member
    rw [items] at member
    have different : other ≠ con := by
      rintro rfl
      exact gone member
    rw [Unmarked, account_state (kept other different)]
    exact handed.unmarked other (List.mem_of_mem_eraseIdx member)
  case visible =>
    rw [held, new]
    exact handed.visible
  case shown =>
    intro other member
    rw [held, new] at member
    obtain ⟨had, was, counted, level, fate⟩ := handed.shown other member
    have erased := count_eraseIdx other here
    rw [quiet_pending isQuiet] at level
    rw [Shown, items, quiet_pending isQuiet]
    -- the closed connection loses the worker's reference and is `Failed`
    by_cases hit : other = con
    · subst hit
      rw [if_pos rfl] at erased
      rw [List.count_eq_one_of_mem handed.single listed] at level erased
      refine ⟨had - 1, .failed, closeAt_account counted (by omega), by omega, ?_⟩
      exact ⟨fun _ => gone, fun _ => rfl⟩
    · rw [if_neg hit] at erased
      refine ⟨had, was, by rw [kept other hit]; exact counted, by omega, ?_⟩
      rw [stays other hit]
      exact fate
  case hidden =>
    intro other infd makes
    rw [(quiet_running isQuiet).2.1] at makes
    cases makes
  case created =>
    intro other infd impossible
    rw [impossible] at isQuiet
    cases isQuiet
  case registered =>
    intro other infd impossible
    rw [impossible] at isQuiet
    cases isQuiet

theorem close_handed (handed : Handed world pc) (isQuiet : quiet pc = true) (number : Nat) :
    Handed (world.closeConnection number).2 pc := by
  have forgotten : Handed (world.forgetNew number) pc := by
    obtain ⟨held, created, _⟩ := forgetNew_lists world number 0
    have fewer : ((world.forgetNew number).held ++
        (world.forgetNew number).mNewConnections.items).Sublist
        (world.held ++ world.mNewConnections.items) := by
      rw [held]
      exact (List.Sublist.refl _).append (forgetNew_sublist world number)
    exact handed_frame handed (view_objects (forgetNew_objects world number))
      (by rw [forgetNew_connections]) created (handed.visible.sublist fewer)
      fun _ member => fewer.subset member
  rcases close_cases world number with ⟨_, same⟩ | ⟨con, index, _, here, _, same⟩
  · rw [same]
    exact forgotten
  · rw [same]
    exact closeAt_handed forgotten isQuiet (by rw [forgetNew_connections]; exact here)

end Closing

section Accepting

/-- An object only the worker knows is cleared away. -/
theorem clear_handed (handed : Handed world pc) (hidden : Hidden world con) (isQuiet : quiet nextPc = true)
    (shows : ∀ other ∈ world.held ++ world.mNewConnections.items, pending pc other = 0) :
    Handed (world.destroyAsock con) nextPc := by
  have lists := destroy_lists world con
  have kept : ∀ other, other ≠ con → view account (world.destroyAsock con) other =
      view account world other := fun other different => view_elsewhere (destroy_other different)
  constructor
  case placed =>
    intro other
    rw [destroy_isSome, lists.created]
    exact handed.placed other
  case single =>
    rw [lists.connections]
    exact handed.single
  case unmarked =>
    intro other member
    rw [lists.connections] at member
    rw [Unmarked, view_destroy stateOf_uncounted]
    exact handed.unmarked other member
  case visible =>
    rw [lists.held, lists.new]
    exact handed.visible
  case shown =>
    intro other member
    rw [lists.held, lists.new] at member
    rw [Shown, kept other fun same => hidden.1 (same ▸ member), lists.connections,
      quiet_pending isQuiet, ← shows other member]
    exact handed.shown other member
  case hidden =>
    intro other infd makes
    rw [(quiet_running isQuiet).2.1] at makes
    cases makes
  case created =>
    intro other infd impossible
    rw [impossible] at isQuiet
    cases isQuiet
  case registered =>
    intro other infd impossible
    rw [impossible] at isQuiet
    cases isQuiet

theorem cleared_handed {server : Server} (handed : Handed world pc) (hidden : Hidden world con)
    (shows : ∀ other ∈ world.held ++ world.mNewConnections.items, pending pc other = 0) :
    Handed (clearAfterFailure server world con infd).world
      (clearAfterFailure server world con infd).pc :=
  handed_same (clear_handed handed hidden rfl shows) (view_objects (close_objects _))
    (close_lists _ (some infd))

theorem add_handed {made : Asock} (handed : Handed world pc) (isQuiet : quiet pc = true)
    (counted : made.mRefCounter = 1) (unfailed : made.mState ≠ .failed) :
    Handed (world.add made) (.created world.created infd) := by
  have old : ∀ {con released count state},
      view account world con = some (released, count, state) → con ≠ world.created := by
    intro con released count state here
    exact Nat.ne_of_lt (account_known handed here)
  have listed : ∀ con ∈ world.mConnections.items, con ≠ world.created := by
    intro con member
    obtain ⟨_, here, _⟩ := handed.unmarked con member
    obtain ⟨object, found, _⟩ := Option.map_eq_some_iff.mp here
    exact Nat.ne_of_lt ((handed.placed con).mp (by rw [found]; rfl))
  have visible : ∀ con ∈ world.held ++ world.mNewConnections.items, con ≠ world.created := by
    intro con member
    obtain ⟨_, _, here, _⟩ := handed.shown con member
    exact old here
  constructor
  case placed =>
    intro con
    have more : (world.add made).created = world.created + 1 := rfl
    rw [add_isSome, more, Bool.or_eq_true, decide_eq_true_eq, handed.placed]
    exact or_comm.trans Nat.lt_succ_iff_lt_or_eq.symm
  case single => exact handed.single
  case unmarked =>
    intro con member
    rw [Unmarked, added_view made (listed con member)]
    exact handed.unmarked con member
  case visible => exact handed.visible
  case shown =>
    intro con member
    obtain ⟨count, state, here, level, fate⟩ := handed.shown con member
    rw [quiet_pending isQuiet] at level
    exact ⟨count, state, by rw [added_view made (visible con member)]; exact here, level, fate⟩
  case hidden =>
    intro con fd makes
    cases makes
    refine ⟨fun member => visible _ member rfl, made.mState, ?_, unfailed⟩
    simp [view, added_here, account, counted]
  case created =>
    intro con fd same
    cases same
    exact fun member => listed _ member rfl
  case registered =>
    intro con fd impossible
    cases impossible

theorem accept_handed {server after : Server} {number : Nat} {peer : List Byte}
    {answers : AcceptAnswers} (handed : Handed server.world server.pc)
    (pc : server.pc = .accepting)
    (accepts : acceptStep server number peer answers = some after) :
    Handed after.world after.pc := by
  have isQuiet : quiet server.pc = true := by rw [pc]; rfl
  obtain ⟨infd, world, acquires, result⟩ := accept_cases accepts
  obtain ⟨objects, _⟩ := acquire_effect acquires
  have before := handed_same handed (view_objects objects) (acquire_references acquires).lists
  rcases result with rfl | ⟨made, arrived, rfl | ⟨_, rfl⟩⟩
  · have closed := handed_same before (view_objects (close_objects (some infd)))
      (close_lists world (some infd))
    exact handed_turn closed isQuiet rfl
  · exact add_handed before isQuiet arrived.counted (by rw [arrived.established]; decide)
  · have grown : Handed (world.add made) (.created world.created infd) :=
      add_handed before isQuiet arrived.counted (by rw [arrived.established]; decide)
    exact cleared_handed grown (grown.hidden _ infd rfl) fun _ _ => rfl

theorem register_handed {server : Server} (handed : Handed server.world server.pc)
    (pc : server.pc = .created con infd) (granted : Bool) :
    Handed (registerStep server con infd granted).world
      (registerStep server con infd granted).pc := by
  have hidden := handed.hidden con infd (by rw [pc]; rfl)
  have unlisted := handed.created con infd pc
  rcases register_cases server con infd granted with ⟨items, same⟩ | ⟨_, items, same⟩
  · rw [same]
    constructor
    case placed => exact handed.placed
    case single =>
      rw [setConnections_items, items, List.nodup_append_comm]
      exact List.nodup_cons.mpr ⟨unlisted, handed.single⟩
    case unmarked =>
      intro other member
      rw [setConnections_items, items, List.mem_append, List.mem_singleton] at member
      rcases member with before | rfl
      · exact handed.unmarked other before
      · obtain ⟨_, state, here, unfailed⟩ := hidden
        obtain ⟨object, found, same⟩ := Option.map_eq_some_iff.mp here
        simp only [account, Prod.mk.injEq] at same
        exact ⟨state, by simp [view, found, stateOf, same.2.2], unfailed⟩
    case visible => exact handed.visible
    case shown =>
      intro other member
      obtain ⟨count, state, here, level, fate⟩ := handed.shown other member
      have different : other ≠ con := fun same => hidden.1 (same ▸ member)
      rw [pc] at level
      refine ⟨count, state, here, ?_, ?_⟩
      · rw [setConnections_items, items, count_pushed, if_neg different]
        simpa [pending, different] using level
      · rw [setConnections_items, items, List.mem_append, List.mem_singleton]
        simpa [different] using fate
    case hidden =>
      intro other fd makes
      cases makes
      exact hidden
    case created =>
      intro other fd impossible
      cases impossible
    case registered =>
      intro other fd same
      cases same
      exact ⟨_, items⟩
  · rw [same]
    have lost : Handed (server.world.setConnections
        (server.world.mConnections.push con granted).2) server.pc :=
      handed_frame handed rfl items rfl handed.visible fun _ member => member
    refine cleared_handed lost hidden fun other _ => ?_
    rw [pc]
    rfl

/-- The push into `m_connections` is undone. -/
theorem unregister_handed (handed : Handed world (.registered con infd)) (front : List ConRef)
    (last : world.mConnections.items = front ++ [con]) (objects : next.objects = world.objects)
    (items : next.mConnections.items = front) (created : next.created = world.created)
    (visible : next.held ++ next.mNewConnections.items =
      world.held ++ world.mNewConnections.items) : Handed next (.created con infd) := by
  have hidden := handed.hidden con infd rfl
  have single := handed.single
  rw [last, List.nodup_append_comm] at single
  obtain ⟨absent, single⟩ := List.nodup_cons.mp single
  constructor
  case placed =>
    intro other
    rw [objects, created]
    exact handed.placed other
  case single =>
    rw [items]
    exact single
  case unmarked =>
    intro other member
    rw [items] at member
    rw [Unmarked, view_objects objects]
    exact handed.unmarked other (by rw [last]; exact List.mem_append_left _ member)
  case visible =>
    rw [visible]
    exact handed.visible
  case shown =>
    intro other member
    rw [visible] at member
    obtain ⟨count, state, here, level, fate⟩ := handed.shown other member
    have different : other ≠ con := fun same => hidden.1 (same ▸ member)
    rw [last] at level fate
    refine ⟨count, state, by rw [view_objects objects]; exact here, ?_, ?_⟩
    · rw [items]
      rw [count_pushed, if_neg different] at level
      simpa [pending] using level
    · rw [items]
      simpa [different] using fate
  case hidden =>
    intro other fd makes
    cases makes
    rw [Hidden, visible, view_objects objects]
    exact hidden
  case created =>
    intro other fd same
    cases same
    rw [items]
    exact absent
  case registered =>
    intro other fd impossible
    cases impossible

theorem announce_handed {server : Server} (handed : Handed server.world server.pc)
    (pc : server.pc = .registered con infd) (granted : Bool) :
    Handed (announceStep server con infd granted).world
      (announceStep server con infd granted).pc := by
  obtain ⟨unseen, state, here, unfailed⟩ := handed.hidden con infd (by rw [pc]; rfl)
  obtain ⟨front, last⟩ := handed.registered con infd pc
  have listed : con ∈ server.world.mConnections.items := by
    rw [last]
    exact List.mem_append_right _ List.mem_cons_self
  rcases announce_cases server con infd granted with ⟨items, same⟩ | ⟨_, items, same⟩
  · rw [same]
    constructor
    case placed => exact handed.placed
    case single => exact handed.single
    case unmarked => exact handed.unmarked
    case visible =>
      rw [setNew_held, setNew_items, items, ← List.append_assoc, List.nodup_append_comm]
      exact List.nodup_cons.mpr ⟨unseen, handed.visible⟩
    case shown =>
      intro other member
      rw [setNew_held, setNew_items, items, ← List.append_assoc, List.mem_append,
        List.mem_singleton] at member
      rcases member with before | rfl
      · obtain ⟨count, was, accounted, level, fate⟩ := handed.shown other before
        have different : other ≠ con := fun same => unseen (same ▸ before)
        rw [pc] at level
        refine ⟨count, was, accounted, ?_, fate⟩
        simpa [pending, different] using level
      · refine ⟨1, state, here, ?_, ?_⟩
        · rw [setNew_connections, List.count_eq_one_of_mem handed.single listed]
          simp [pending]
        · exact ⟨fun failed => absurd failed unfailed, fun absent => absurd listed absent⟩
    case hidden =>
      intro other fd makes
      cases makes
    case created =>
      intro other fd impossible
      cases impossible
    case registered =>
      intro other fd impossible
      cases impossible
  · rw [same]
    rw [pc] at handed
    have erased := erase_last last
    have undone : Handed ((server.world.setNew
        (server.world.mNewConnections.push con granted).2).setConnections
          (server.world.mConnections.erase (server.world.mConnections.items.length - 1)))
        (.created con infd) := by
      refine unregister_handed handed front last rfl erased rfl ?_
      rw [setConnections_held, setConnections_new, setNew_held, setNew_items, items]
    exact cleared_handed undone (undone.hidden con infd rfl) fun _ _ => rfl

/-- The increment, after which nothing is pending. -/
theorem raise_handed (handed : Handed world (.announced con)) :
    Handed (world.counterIncr con) .accepting := by
  have lists := incr_lists world con
  have kept : ∀ other, other ≠ con → view account (world.counterIncr con) other =
      view account world other := fun other different => view_elsewhere (incr_other different)
  constructor
  case placed =>
    intro other
    rw [incr_isSome, lists.created]
    exact handed.placed other
  case single =>
    rw [lists.connections]
    exact handed.single
  case unmarked =>
    intro other member
    rw [lists.connections] at member
    rw [Unmarked, view_incr stateOf_uncounted]
    exact handed.unmarked other member
  case visible =>
    rw [lists.held, lists.new]
    exact handed.visible
  case shown =>
    intro other member
    rw [lists.held, lists.new] at member
    obtain ⟨count, state, here, level, fate⟩ := handed.shown other member
    rw [Shown, lists.connections]
    by_cases hit : other = con
    · subst hit
      refine ⟨count + 1, state, incr_account here, ?_, fate⟩
      simpa [pending] using level
    · refine ⟨count, state, by rw [kept other hit]; exact here, ?_, fate⟩
      simpa [pending, hit] using level
  case hidden =>
    intro other fd makes
    cases makes
  case created =>
    intro other fd impossible
    cases impossible
  case registered =>
    intro other fd impossible
    cases impossible

end Accepting

section Users

theorem userAccept_handed {server : Server} (handed : Handed server.world server.pc) :
    Handed (userAcceptStep server).world (userAcceptStep server).pc := by
  unfold userAcceptStep
  split
  · exact handed
  · rename_i con rest items
    have erased : (server.world.mNewConnections.erase 0).items = rest := by
      simp [Connections.erase, items]
    have moved : (con :: server.world.held ++ rest).Perm
        (server.world.held ++ server.world.mNewConnections.items) := by
      rw [items]
      exact List.perm_middle.symm
    refine handed_frame handed rfl rfl rfl ?_ ?_
    · rw [setHeld_items, setHeld_new, setNew_items, erased]
      exact moved.nodup_iff.mpr handed.visible
    · intro other member
      rw [setHeld_items, setHeld_new, setNew_items, erased] at member
      exact moved.subset member

theorem userDestroy_handed (handed : Handed world pc)
    (destroys : world.userDestroy con = some next) : Handed next pc := by
  obtain ⟨holds, rfl⟩ := userDestroy_cases _ destroys
  have lists := destroy_lists (world.setHeld (world.held.erase con)) con
  have kept : ∀ other, other ≠ con → view account
      ((world.setHeld (world.held.erase con)).destroyAsock con) other = view account world other :=
    fun other different => view_elsewhere (destroy_other different)
  have fewer : (world.held.erase con ++ world.mNewConnections.items).Sublist
      (world.held ++ world.mNewConnections.items) :=
    List.Sublist.append_right List.erase_sublist _
  have unseen : con ∉ world.held.erase con ++ world.mNewConnections.items := by
    obtain ⟨heldOnce, _, apart⟩ := List.nodup_append.mp handed.visible
    intro member
    rcases List.mem_append.mp member with again | waits
    · exact (heldOnce.mem_erase_iff.mp again).1 rfl
    · exact apart con holds con waits rfl
  constructor
  case placed =>
    intro other
    rw [destroy_isSome, lists.created]
    exact handed.placed other
  case single =>
    rw [lists.connections]
    exact handed.single
  case unmarked =>
    intro other member
    rw [lists.connections] at member
    rw [Unmarked, view_destroy stateOf_uncounted]
    exact handed.unmarked other member
  case visible =>
    rw [lists.held, lists.new]
    exact handed.visible.sublist fewer
  case shown =>
    intro other member
    rw [lists.held, lists.new] at member
    rw [Shown, lists.connections, kept other fun same => unseen (same ▸ member)]
    exact handed.shown other (fewer.subset member)
  case hidden =>
    intro other fd makes
    obtain ⟨away, fresh⟩ := handed.hidden other fd makes
    rw [Hidden, lists.held, lists.new,
      kept other fun same => away (List.mem_append_left _ (same ▸ holds))]
    exact ⟨fun member => away (fewer.subset member), fresh⟩
  case created =>
    rw [lists.connections]
    exact handed.created
  case registered =>
    rw [lists.connections]
    exact handed.registered

theorem userRead_account {dst : List Byte} (reads : world.userRead con dst = some next) :
    view account next = view account world := by
  obtain ⟨object, _, _, _, _, found, _, rfl⟩ := userRead_cases world reads
  exact view_put _ found rfl

theorem readData_account {number count : Nat} {answer : Allocation}
    (reads : world.readData number count answer = some next) :
    view account next = view account world := by
  obtain ⟨acquisition, _, _, ⟨_, rfl⟩ | ⟨con, object, queue, _, found, _, rfl⟩⟩ :=
    readData_cases world reads
  · rfl
  · exact view_put _ found rfl

theorem arrive_account {number : Nat} {bytes : List Byte}
    (arrives : world.arrive number bytes = some next) : view account next = view account world := by
  obtain ⟨_, _, rfl⟩ := Option.map_eq_some_iff.mp arrives
  rfl

end Users

theorem step_handed (handed : Handed server.world server.pc)
    (stepped : step server label = some after) (runs : running after.pc = true) :
    Handed after.world after.pc := by
  cases step_moved stepped with
  | closed number peer closing =>
      have isQuiet := mayClose_quiet closing
      exact handed_turn (close_handed handed isQuiet number) isQuiet rfl
  | turned pc before isQuiet => exact handed_turn handed before isQuiet
  | accepted pc accepts => exact accept_handed handed pc accepts
  | registered con infd pc => exact register_handed handed pc _
  | announced con infd pc => exact announce_handed handed pc _
  | raised con pc =>
      rw [pc] at handed
      exact raise_handed handed
  | read number world pc reads =>
      exact handed_same handed (readData_account reads) (readData_references reads).lists
  | stopped | destroyed => cases runs
  | userAccepted => exact userAccept_handed handed
  | userRead world reads =>
      exact handed_same handed (userRead_account reads) (userRead_references reads).lists
  | userDestroyed world destroys => exact userDestroy_handed handed destroys
  | arrived world arrives =>
      exact handed_same handed (arrive_account arrives) (arrive_references arrives).lists

/-- A worker that has stopped does not run again. -/
theorem ran_before (stepped : step server label = some after) (runs : running after.pc = true) :
    running server.pc = true := by
  cases step_moved stepped with
  | closed _ _ closing => exact (quiet_running (mayClose_quiet closing)).1
  | turned _ before => exact (quiet_running before).1
  | accepted pc | registered _ _ pc | announced _ _ pc | raised _ pc | read _ _ pc =>
      rw [pc]
      rfl
  | stopped | destroyed => cases runs
  | userAccepted =>
      have same : (userAcceptStep server).pc = server.pc := by
        unfold userAcceptStep
        split <;> rfl
      rwa [same] at runs
  | userRead | userDestroyed | arrived => exact runs

theorem listening_handed (mServerId : Int) (number : Nat) :
    Handed (Server.listening mServerId number).world .ready := by
  constructor
  case placed =>
    intro con
    exact ⟨fun impossible => Bool.noConfusion impossible,
      fun impossible => absurd impossible (Nat.not_lt_zero con)⟩
  case single => exact List.nodup_nil
  case unmarked =>
    intro con member
    cases member
  case visible => exact List.nodup_nil
  case shown =>
    intro con member
    cases member
  case hidden =>
    intro con infd makes
    cases makes
  case created =>
    intro con infd impossible
    cases impossible
  case registered =>
    intro con infd impossible
    cases impossible

theorem handed_shared (handed : Handed server.world server.pc) (pc : server.pc = .ready) :
    Shared server.world server.world.mConnections.items := by
  intro con holds object found inUse
  obtain ⟨count, state, here, level, fate⟩ := handed.shown con (List.mem_append_left _ holds)
  simp only [view, found, Option.map_some, account, Option.some.injEq, Prod.mk.injEq] at here
  obtain ⟨alive, rfl, rfl⟩ := here
  have nothing : pending server.pc con = 0 := by rw [pc]; rfl
  refine ⟨alive, ?_, fate.mp⟩
  rw [fate, ← List.count_eq_zero]
  omega

theorem server_stop_ends {mServerId : Int} {number : Nat}
    (run : Run step (.listening mServerId number) server)
    (stops : step server .stop = some after) :
    EndedVisibly after.world ↔ Unserved server.world := by
  have handed := run.invariant
    (fun server => running server.pc = true → Handed server.world server.pc)
    (fun _ _ _ handed _ stepped runs => step_handed (handed (ran_before stepped runs)) stepped runs)
    (fun _ => listening_handed mServerId number)
  obtain ⟨pc, rfl⟩ : server.pc = .ready ∧ after = stopStep server := by
    simp only [step, Label.byUser, Bool.false_eq_true, if_false] at stops
    split at stops
    · cases stops
    · cases pc : server.pc <;>
        simp only [workerStep, pc, reduceCtorEq, Option.some.injEq] at stops
      exact ⟨rfl, stops.symm⟩
  have ended := stop_ends _ (handed_shared (handed (by rw [pc]; rfl)) pc)
  simp only [stopStep, EndedVisibly, close_objects, (close_lists _ _).held]
  exact ended

section Results

/-- The state the first connection is in. -/
def firstState (world : World) : Option AsockConState :=
  (world.objects 0).map fun object => object.con.mState

theorem established_unended {world : World} (holds : 0 ∈ world.held)
    (established : firstState world = some .established) : ¬ EndedVisibly world := by
  intro ended
  obtain ⟨object, found, state⟩ := Option.map_eq_some_iff.mp established
  have inUse : InUse object := by
    unfold InUse
    rw [state]
    decide
  obtain ⟨failed, _⟩ := ended 0 holds object found inUse
  rw [state] at failed
  cases failed

end Results

end Libasock.ServerStops
