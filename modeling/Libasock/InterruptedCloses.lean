import Libasock.ServerDescriptors
import Libasock.ServiceDescriptors

/-!
The closes of the two workers with users in between. The other modules take a close as one step;
but after its `close()` nothing is locked, and a user's call may come before the worker's
`asock_destroy_asock` and find the connection `Failed` with its number still there. Here that moment
is a state of its own. What both workers need for it is stated once, over a `Kind` of worker.
-/

namespace Libasock.InterruptedCloses
open ByteBlocks GuardedRuns NumberReuse ReturnCodes ConnectionObjects WorkerWorld ReferenceCounts
  DescriptorOwnership SocketContents RegisteredConnections

section Kinds

variable {Worker Moves : Type}

/-- A worker whose closes are to be cut: its steps and the world in it. -/
structure Kind (Worker Moves : Type) where
  step : Worker → Moves → Option Worker
  byUser : Moves → Bool
  closedNumber : Worker → Moves → Option Nat
  worldOf : Worker → World
  withWorld : Worker → World → Worker
  world_with : ∀ worker world, worldOf (withWorld worker world) = world
  with_same : ∀ worker, withWorld worker (worldOf worker) = worker
  with_with : ∀ worker first last, withWorld (withWorld worker first) last = withWorld worker last

/-- `dropping` is the connection that a close has found, and its index, from `close()` on. -/
structure Interrupted (Worker : Type) where
  worker : Worker
  dropping : Option (ConRef × Nat)

inductive Label (Moves : Type) where
  | move (label : Moves)
  | drop

/-- A step of the worker that closes the number, up to `close()`. -/
def closing (kind : Kind Worker Moves) (before after : Worker) (number : Nat) :
    Interrupted Worker :=
  let shut := (kind.worldOf before).shut number
  ⟨kind.withWorld after shut.2, shut.1⟩

/-- Until the drop only users move. -/
def step (kind : Kind Worker Moves) (state : Interrupted Worker) :
    Label Moves → Option (Interrupted Worker)
  | .move label =>
      match state.dropping with
      | none => (kind.step state.worker label).map fun after =>
          match kind.closedNumber state.worker label with
          | none => ⟨after, none⟩
          | some number => closing kind state.worker after number
      | some entry =>
          if kind.byUser label then
            (kind.step state.worker label).map fun after => ⟨after, some entry⟩
          else none
  | .drop => state.dropping.map fun entry =>
      ⟨kind.withWorld state.worker ((kind.worldOf state.worker).dropAt entry.1 entry.2), none⟩

/-- Each step of the worker and its users meets its condition, and the drop is not of the last
reference. -/
def Spared (kind : Kind Worker Moves) (guard : Worker → Moves → Prop) (state : Interrupted Worker) :
    Label Moves → Prop
  | .move label => guard state.worker label
  | .drop => ∀ entry ∈ state.dropping, counter (kind.worldOf state.worker) entry.1 ≠ 1

instance (kind : Kind Worker Moves) (guard : Worker → Moves → Prop)
    [∀ worker label, Decidable (guard worker label)] (state : Interrupted Worker) :
    (label : Label Moves) → Decidable (Spared kind guard state label)
  | .move label => inferInstanceAs (Decidable (guard state.worker label))
  | .drop => inferInstanceAs (Decidable
      (∀ entry ∈ state.dropping, counter (kind.worldOf state.worker) entry.1 ≠ 1))

def Interrupted.whole (worker : Worker) : Interrupted Worker := ⟨worker, none⟩

end Kinds

section Rule

variable {Worker Moves : Type} {kind : Kind Worker Moves} {guard : Worker → Moves → Prop}
  {inv : Worker → Prop} {spare : Worker → ConRef → Prop} {state after : Interrupted Worker}

/-- The worker without the entry that a close has still to erase. -/
def rest (kind : Kind Worker Moves) (state : Interrupted Worker) : Worker :=
  kind.withWorld state.worker ((kind.worldOf state.worker).unlisted state.dropping)

/-- What a worker has to keep for its closes to be interrupted; `spare` says that a connection has
a reference that no entry and no user stands for. -/
structure Carries (kind : Kind Worker Moves) (guard : Worker → Moves → Prop)
    (inv : Worker → Prop) (spare : Worker → ConRef → Prop) : Prop where
  moves : ∀ {worker after label}, inv worker → guard worker label →
    kind.closedNumber worker label = none → kind.step worker label = some after → inv after
  shuts : ∀ {worker after label number}, inv worker →
    kind.closedNumber worker label = some number → kind.step worker label = some after →
    inv (kind.withWorld after (halfClosed (kind.worldOf worker) number)) ∧
      ∀ con, (kind.worldOf worker).conBySockDesc number = some con →
        spare (kind.withWorld after (halfClosed (kind.worldOf worker) number)) con
  drops : ∀ {worker con}, inv worker → spare worker con → counter (kind.worldOf worker) con ≠ 1 →
    inv (kind.withWorld worker ((kind.worldOf worker).destroyAsock con))
  stays : ∀ {worker after label con}, inv worker → spare worker con → guard worker label →
    kind.byUser label = true → kind.step worker label = some after → spare after con
  users : ∀ {worker label}, kind.byUser label = true → kind.closedNumber worker label = none
  unlists : ∀ {worker label list}, kind.byUser label = true → guard worker label →
    guard (kind.withWorld worker ((kind.worldOf worker).setConnections list)) label
  frame : ∀ {worker after label list con},
    spare (kind.withWorld worker ((kind.worldOf worker).setConnections list)) con →
    kind.byUser label = true → kind.step worker label = some after →
    (kind.worldOf after).mConnections = (kind.worldOf worker).mConnections ∧
      kind.step (kind.withWorld worker ((kind.worldOf worker).setConnections list)) label =
        some (kind.withWorld after ((kind.worldOf after).setConnections list))

structure Kept (kind : Kind Worker Moves) (inv : Worker → Prop) (spare : Worker → ConRef → Prop)
    (state : Interrupted Worker) : Prop where
  rest : inv (rest kind state)
  spare : ∀ entry ∈ state.dropping, spare (InterruptedCloses.rest kind state) entry.1

theorem rest_whole (kind : Kind Worker Moves) (worker : Worker) :
    rest kind ⟨worker, none⟩ = worker := kind.with_same worker

theorem rest_closing (kind : Kind Worker Moves) (before after : Worker) (number : Nat) :
    rest kind (closing kind before after number) =
      kind.withWorld after (halfClosed (kind.worldOf before) number) := by
  simp only [rest, closing, kind.world_with, kind.with_with, halfClosed]

theorem rest_table (kind : Kind Worker Moves) (state : Interrupted Worker) :
    (kind.worldOf (rest kind state)).table = (kind.worldOf state.worker).table := by
  rw [rest, kind.world_with]
  cases state.dropping <;> rfl

theorem whole_kept {worker : Worker} (holds : inv worker) :
    Kept kind inv spare ⟨worker, none⟩ := by
  refine ⟨?_, fun entry impossible => by cases impossible⟩
  rw [rest_whole]
  exact holds

/-- The connection is found by the number, and its entry is what the close has to erase. -/
theorem closing_entry {world : World} {number : Nat} {entry : ConRef × Nat}
    (found : entry ∈ (world.shut number).1) : world.conBySockDesc number = some entry.1 := by
  rcases shut_cases world number with ⟨_, same⟩ | ⟨con, index, known, _, _, same⟩
  · rw [same] at found
    cases found
  · rw [same] at found
    cases found
    exact known

theorem move_kept (carries : Carries kind guard inv spare) {label : Moves}
    (kept : Kept kind inv spare state) (spared : guard state.worker label)
    (stepped : step kind state (.move label) = some after) : Kept kind inv spare after := by
  obtain ⟨worker, dropping⟩ := state
  cases dropping with
  | none =>
      have holds := kept.rest
      rw [rest_whole] at holds
      obtain ⟨next, steps, same⟩ := Option.map_eq_some_iff.mp stepped
      cases closes : kind.closedNumber worker label with
      | none =>
          simp only [closes] at same
          cases same
          exact whole_kept (carries.moves holds spared closes steps)
      | some number =>
          simp only [closes] at same
          cases same
          obtain ⟨shut, spares⟩ := carries.shuts holds closes steps
          refine ⟨by rw [rest_closing]; exact shut, fun entry found => ?_⟩
          rw [rest_closing]
          exact spares entry.1 (closing_entry found)
  | some entry =>
      simp only [step] at stepped
      split at stepped
      case isFalse => cases stepped
      case isTrue isUser =>
        obtain ⟨next, steps, same⟩ := Option.map_eq_some_iff.mp stepped
        cases same
        have spares := kept.spare entry rfl
        obtain ⟨lists, follows⟩ := carries.frame spares isUser steps
        -- the user's step is the same one without the entry
        have there : rest kind ⟨next, some entry⟩ = kind.withWorld next
            ((kind.worldOf next).setConnections ((kind.worldOf worker).mConnections.erase entry.2)) := by
          rw [← lists]
          rfl
        refine ⟨?_, fun other found => ?_⟩
        · rw [there]
          exact carries.moves kept.rest (carries.unlists isUser spared) (carries.users isUser) follows
        · cases found
          rw [there]
          exact carries.stays kept.rest spares (carries.unlists isUser spared) isUser follows

theorem drop_kept (carries : Carries kind guard inv spare) (kept : Kept kind inv spare state)
    (spared : Spared kind guard state .drop) (stepped : step kind state .drop = some after) :
    Kept kind inv spare after := by
  obtain ⟨entry, found, same⟩ := Option.map_eq_some_iff.mp stepped
  obtain ⟨worker, dropping⟩ := state
  cases found
  cases same
  have last : counter (kind.worldOf (rest kind ⟨worker, some entry⟩)) entry.1 ≠ 1 := by
    rw [rest, kind.world_with]
    exact spared entry rfl
  have dropped := carries.drops kept.rest (kept.spare entry rfl) last
  rw [rest, kind.world_with, kind.with_with, ← dropAt_unlisted] at dropped
  exact whole_kept dropped

/-- An invariant of the worker whose steps and whose interrupted closes keep it holds of every run,
as long as the entry that a close has still to erase is left out. -/
theorem run_kept (carries : Carries kind guard inv spare) {worker : Worker} (holds : inv worker)
    {last : Interrupted Worker}
    (run : GuardedRun (step kind) (Spared kind guard) (.whole worker) last) :
    inv (rest kind last) := by
  have kept : Kept kind inv spare last := by
    refine run.invariant (Kept kind inv spare) ?_ (whole_kept holds)
    intro _ label _ kept spared stepped
    cases label with
    | move label => exact move_kept carries kept spared stepped
    | drop => exact drop_kept carries kept spared stepped
  exact kept.rest

end Rule

section Users

variable {world after : World} {con : ConRef} (list : Connections)

theorem userRead_unlists {dst : List Byte} (reads : world.userRead con dst = some after) :
    after.mConnections = world.mConnections ∧
      (world.setConnections list).userRead con dst = some (after.setConnections list) := by
  obtain ⟨object, count, block, queue, held, found, result, rfl⟩ := userRead_cases _ reads
  refine ⟨rfl, ?_⟩
  simp [World.userRead, held, found, result, World.setConnections, World.put]

theorem userDestroy_unlists (destroys : world.userDestroy con = some after) :
    after.mConnections = world.mConnections ∧
      (world.setConnections list).userDestroy con = some (after.setConnections list) := by
  obtain ⟨held, rfl⟩ := userDestroy_cases _ destroys
  refine ⟨(destroy_lists _ con).connections, ?_⟩
  rw [World.userDestroy, setConnections_held, if_pos held]
  exact congrArg some (destroy_unlists (world.setHeld (world.held.erase con)) con list)

theorem arrive_unlists {number : Nat} {bytes : List Byte}
    (arrives : world.arrive number bytes = some after) :
    after.mConnections = world.mConnections ∧
      (world.setConnections list).arrive number bytes = some (after.setConnections list) := by
  obtain ⟨acquisition, isOpen, rfl⟩ := Option.map_eq_some_iff.mp arrives
  refine ⟨rfl, ?_⟩
  simp [World.arrive, World.setConnections, isOpen, World.setSocket]

end Users

section Drops

variable {world : World} {con : ConRef} {listening : Option Descriptor}

/-- A drop that is not of the last reference closes nothing. -/
theorem destroyed_settled (owned : OwnedWorld world listening) (settled : SettledWorld world listening)
    (shared : counter world con ≠ 1) :
    OwnedWorld (world.destroyAsock con) listening ∧
      SettledWorld (world.destroyAsock con) listening := by
  cases found : world.objects con with
  | none =>
      rw [destroy_unknown found]
      exact ⟨owned, settled⟩
  | some object =>
      rw [counter_some found] at shared
      exact ⟨owned_destroy owned found fun last => absurd last shared,
        settled_destroy settled owned found fun last => absurd last shared⟩

theorem destroyed_roster (roster : Roster world listening)
    (owned : OwnedWorld (world.destroyAsock con) listening) :
    Roster (world.destroyAsock con) listening :=
  roster_frame roster owned (view_destroy standing_uncounted world con)
    (congrArg Connections.items (destroy_lists world con).connections)

/-- A reference that nobody stands for can be dropped. -/
theorem destroyed_counts (freed : FreedAtZero world) (positive : 0 < counter world con) :
    FreedAtZero (world.destroyAsock con) ∧
      ∀ other, counter (world.destroyAsock con) other =
        counter world other - if other = con then 1 else 0 := by
  obtain ⟨object, found⟩ := counted_object (Int.ne_of_gt positive)
  exact ⟨freed_destroy freed positive, fun other => counter_destroy found⟩

end Drops

section Servers
open ServerWorker ServerReferences ServerDescriptors

def serverKind : Kind Server ServerWorker.Label where
  step := ServerWorker.step
  byUser := ServerWorker.Label.byUser
  closedNumber := ServerWorker.closedNumber
  worldOf server := server.world
  withWorld server world := { server with world := world }
  world_with _ _ := rfl
  with_same _ := rfl
  with_with _ _ _ := rfl

structure Settles (server : Server) : Prop where
  covered : Covered server
  routed : Routed server
  settled : SettledWorld server.world (listeningSocket server)

structure Spare (server : Server) (con : ConRef) : Prop where
  isQuiet : quiet server.pc = true
  surplus : 1 ≤ surplus server con

variable {server after : Server} {label : ServerWorker.Label} {number : Nat}

theorem server_closing (closes : closedNumber server label = some number)
    (stepped : ServerWorker.step server label = some after) :
    mayClose server.pc = true ∧ ∃ peer, after = closeNumber server number peer := by
  cases step_moved stepped with
  | closed found peer closing asked =>
      rw [asked, Option.some.injEq] at closes
      subst closes
      exact ⟨closing, peer, rfl⟩
  | turned _ _ _ harmless =>
      rw [harmless] at closes
      cases closes
  | accepted | registered | announced | raised | read | stopped | destroyed | userAccepted | userRead
  | userDestroyed | arrived => cases closes

theorem server_shut (settles : Settles server) (closing : mayClose server.pc = true) (peer : Bool) :
    let half := { closeNumber server number peer with world := halfClosed server.world number }
    Settles half ∧ ∀ con, server.world.conBySockDesc number = some con → Spare half con := by
  intro half
  obtain ⟨covered, routed, settled⟩ := settles
  have isQuiet := mayClose_quiet closing
  obtain ⟨runs, _, pushed⟩ := quiet_running isQuiet
  have alive := all_live covered routed runs
  have roster := routed.roster
  rw [listeningSocket, if_pos runs] at roster settled
  have counts := half_counts server.world number
  have surpluses : ∀ con, surplus server con +
      (if server.world.conBySockDesc number = some con then 1 else 0) ≤ surplus half con := by
    intro con
    obtain ⟨level, listed, new, held, _, _⟩ := counts con
    obtain ⟨_, _, fewer⟩ := forgetNew_lists server.world number con
    rw [surplus_quiet con isQuiet, surplus_quiet con (show quiet half.pc = true from rfl),
      show counter half.world con = _ from level, show half.world.held = _ from held,
      show half.world.mNewConnections = _ from new]
    have shorter : half.world.mConnections.items.count con +
      (if server.world.conBySockDesc number = some con then 1 else 0) =
        server.world.mConnections.items.count con := listed
    split at shorter <;> simp only [*, if_true, if_false] <;> omega
  have enough : ∀ con, 0 ≤ surplus half con := by
    intro con
    have level := covered.enough con
    have more := surpluses con
    split at more <;> omega
  refine ⟨⟨?_, ?_, settled_half roster alive number settled⟩, fun con known => ⟨rfl, ?_⟩⟩
  · refine covered_quiet rfl covered.raised ?_ (freed_half covered.freed number) enough
    intro con
    obtain ⟨_, _, _, _, created, known⟩ := counts con
    rw [show half.world.created = _ from created, show (half.world.objects con).isSome = _ from known]
    exact covered.placed con
  · refine ⟨roster_half roster alive number, fun con infd makes => (by cases makes), ?_⟩
    intro _ con fd remembers isOpen
    rw [show assigned half.world none = _ from (half_keeps server.world number).assigned none]
      at remembers
    have wasOpen := half_shrinks server.world number fd.number fd.acquisition isOpen
    have listed := (routed.placed runs con fd remembers wasOpen).resolve_right (by
      rw [pushed]
      intro impossible
      cases impossible)
    exact .inl (half_stays listed remembers (by rw [isOpen]; intro impossible; cases impossible))
  · have level := covered.enough con
    have more := surpluses con
    rw [if_pos known] at more
    omega

theorem server_drop {con : ConRef} (settles : Settles server) (spare : Spare server con)
    (shared : counter server.world con ≠ 1) :
    Settles { server with world := server.world.destroyAsock con } := by
  obtain ⟨covered, routed, settled⟩ := settles
  have level := spare.surplus
  rw [surplus_quiet con spare.isQuiet] at level
  have positive : 0 < counter server.world con := by omega
  obtain ⟨freed, counts⟩ := destroyed_counts covered.freed positive
  obtain ⟨owned, once⟩ := destroyed_settled routed.roster.owned settled shared
  have lists := destroy_lists server.world con
  refine ⟨?_, ?_, once⟩
  · refine covered_quiet spare.isQuiet covered.raised ?_ freed ?_
    · intro other
      simp only [destroy_isSome, lists.created]
      exact covered.placed other
    · intro other
      have enough := covered.enough other
      rw [surplus_quiet other spare.isQuiet] at enough
      rw [surplus_quiet other (by exact spare.isQuiet)]
      simp only [counts, lists.connections, lists.new, lists.held]
      by_cases same : other = con
      · subst same
        simp only [if_true]
        omega
      · simp only [same, if_false]
        omega
  · exact routed_frame routed (destroyed_roster routed.roster owned)
      (view_destroy standing_uncounted server.world con) (destroy_keeps server.world con)
      (destroy_shrinks server.world con) (congrArg Connections.items lists.connections) (.inl rfl)

/-- A user leaves the list alone, and sees the same without one of its entries. -/
theorem server_frame (list : Connections) (isUser : label.byUser = true)
    (isQuiet : quiet server.pc = true) (stepped : ServerWorker.step server label = some after) :
    after.world.mConnections = server.world.mConnections ∧ after.pc = server.pc ∧
      ServerWorker.step { server with world := server.world.setConnections list } label =
        some { after with world := after.world.setConnections list } := by
  rw [ServerWorker.step, if_pos isUser] at stepped
  rw [ServerWorker.step, if_pos isUser]
  cases label with
  | destroyServer =>
      simp only [userStep] at stepped
      split at stepped
      · rename_i pc
        rw [pc] at isQuiet
        cases isQuiet
      · cases stepped
  | userAccept =>
      simp only [userStep] at stepped ⊢
      split at stepped
      case isTrue => cases stepped
      case isFalse usable =>
        cases stepped
        refine ⟨?_, ?_, (if_neg usable).trans ?_⟩ <;> unfold userAcceptStep
        · split <;> rfl
        · split <;> rfl
        · simp only [setConnections_new]
          split <;> rfl
  | userRead con dst =>
      obtain ⟨world, reads, rfl⟩ := Option.map_eq_some_iff.mp stepped
      obtain ⟨lists, there⟩ := userRead_unlists list reads
      exact ⟨lists, rfl, by simp only [userStep, there, Option.map_some]⟩
  | userDestroy con =>
      obtain ⟨world, destroys, rfl⟩ := Option.map_eq_some_iff.mp stepped
      obtain ⟨lists, there⟩ := userDestroy_unlists list destroys
      exact ⟨lists, rfl, by simp only [userStep, there, Option.map_some]⟩
  | arrive number bytes =>
      obtain ⟨world, arrives, rfl⟩ := Option.map_eq_some_iff.mp stepped
      obtain ⟨lists, there⟩ := arrive_unlists list arrives
      exact ⟨lists, rfl, by simp only [userStep, there, Option.map_some]⟩
  | _ => cases isUser

theorem server_carries : Carries serverKind ClosesOwn Settles Spare where
  moves {server after label} settles own closes stepped :=
    ⟨(step_covered settles.covered own.early stepped).1,
      step_routed settles.covered settles.routed (closesOwn_fresh own) stepped,
      step_settled settles.covered settles.routed own closes stepped settles.settled⟩
  shuts {server after label number} settles closes stepped := by
    obtain ⟨closing, peer, rfl⟩ := server_closing closes stepped
    exact server_shut settles closing peer
  drops settles spare shared := server_drop settles spare shared
  stays {server after label con} settles spare own isUser stepped := by
    obtain ⟨_, pc, _⟩ := server_frame .create isUser spare.isQuiet stepped
    have level := (step_covered settles.covered own.early stepped).2 con
    have more := spare.surplus
    exact ⟨by rw [pc]; exact spare.isQuiet, by omega⟩
  users {server label} isUser := by
    cases label <;> first | rfl | cases isUser
  unlists _ own := ⟨own.early, own.own, own.done⟩
  frame {server after label list con} spare isUser stepped := by
    have isQuiet : quiet server.pc = true := spare.isQuiet
    obtain ⟨lists, _, there⟩ := server_frame list isUser isQuiet stepped
    exact ⟨lists, there⟩

end Servers

section Services
open ServiceWorker ServiceReferences ServiceStates ServiceDescriptors

def serviceKind : Kind Service ServiceWorker.Label where
  step := ServiceWorker.step
  byUser := ServiceWorker.Label.byUser
  closedNumber := ServiceWorker.closedNumber
  worldOf service := service.world
  withWorld service world := { service with world := world }
  world_with _ _ := rfl
  with_same _ := rfl
  with_with _ _ _ := rfl

structure SettlesService (service : Service) : Prop where
  covered : Covered service
  staged : Staged service
  roster : Roster service.world none
  settled : SettledWorld service.world none

structure SpareService (service : Service) (con : ConRef) : Prop where
  isStill : still service.pc = true
  surplus : 1 ≤ surplus service con

variable {service after : Service} {label : ServiceWorker.Label} {number : Nat}

theorem service_closing (closes : closedNumber service label = some number)
    (stepped : ServiceWorker.step service label = some after) :
    mayClose service.pc = true ∧
      ∃ peer pc, still pc = true ∧ after = closeNumber service number peer pc := by
  cases step_moved stepped with
  | closed found peer pc closing isStill asked =>
      rw [asked, Option.some.injEq] at closes
      subst closes
      exact ⟨closing, peer, pc, isStill, rfl⟩
  | turned _ _ _ harmless =>
      rw [harmless] at closes
      cases closes
  | established con found mask pc =>
      simp [closedNumber, pc] at closes
  | created | began | gaveUp | tookOver | cleared | read | stopped | connectBegun | connectPushed
  | userRead | userDestroyed | arrived => cases closes

theorem service_shut (settles : SettlesService service) (closing : mayClose service.pc = true)
    (peer : Bool) {pc : Pc} (isStill : still pc = true) :
    let half := { closeNumber service number peer pc with world := halfClosed service.world number }
    SettlesService half ∧
      ∀ con, service.world.conBySockDesc number = some con → SpareService half con := by
  intro half
  obtain ⟨covered, staged, roster, settled⟩ := settles
  obtain ⟨listed, new⟩ := still_lists (mayClose_still closing)
  obtain ⟨listedHalf, newHalf⟩ := still_lists (show still half.pc = true from isStill)
  have alive := all_live covered roster (mayClose_runs closing)
  have counts := half_counts service.world number
  have surpluses : ∀ con, surplus service con +
      (if service.world.conBySockDesc number = some con then 1 else 0) ≤ surplus half con := by
    intro con
    obtain ⟨level, entries, announced, held, _, _⟩ := counts con
    obtain ⟨_, _, fewer⟩ := forgetNew_lists service.world number con
    have shorter : half.world.mConnections.items.count con +
      (if service.world.conBySockDesc number = some con then 1 else 0) =
        service.world.mConnections.items.count con := entries
    simp only [surplus, holders, listed, new, listedHalf, newHalf]
    rw [show counter half.world con = _ from level, show half.world.held = _ from held,
      show half.world.mNewConnections = _ from announced,
      show half.connecting = service.connecting from rfl]
    split at shorter <;> simp only [*, if_true, if_false] <;> omega
  refine ⟨⟨⟨?_, freed_half covered.freed number, ?_⟩, half_staged staged closing number peer isStill,
    roster_half roster alive number, settled_half roster alive number settled⟩,
    fun con known => ⟨isStill, ?_⟩⟩
  · intro con
    obtain ⟨_, _, _, _, created, known⟩ := counts con
    rw [show half.world.created = _ from created, show (half.world.objects con).isSome = _ from known]
    exact covered.placed con
  · intro con
    have level := covered.enough con
    have more := surpluses con
    simp only [surplus] at more
    split at more <;> omega
  · have level := covered.enough con
    have more := surpluses con
    rw [if_pos known] at more
    simp only [surplus] at more ⊢
    omega

theorem service_drop {con : ConRef} (settles : SettlesService service)
    (spare : SpareService service con) (shared : counter service.world con ≠ 1) :
    SettlesService { service with world := service.world.destroyAsock con } := by
  obtain ⟨covered, staged, roster, settled⟩ := settles
  have level := spare.surplus
  rw [surplus] at level
  have positive : 0 < counter service.world con := by omega
  obtain ⟨freed, counts⟩ := destroyed_counts covered.freed positive
  obtain ⟨owned, once⟩ := destroyed_settled roster.owned settled shared
  have lists := destroy_lists service.world con
  refine ⟨⟨?_, freed, ?_⟩, destroy_staged staged con, destroyed_roster roster owned, once⟩
  · intro other
    simp only [destroy_isSome, lists.created]
    exact covered.placed other
  · intro other
    have enough := covered.enough other
    have same : holders { service with world := service.world.destroyAsock con } other =
        holders service other := by
      simp only [holders, registered, waiting, lists.connections, lists.new, lists.held]
    rw [same]
    simp only [counts]
    by_cases hit : other = con
    · subst hit
      simp only [if_true]
      omega
    · simp only [hit, if_false]
      omega

theorem connectBegin_unlists {con : ConRef} {addr : List Byte} (list : Connections)
    (begins : connectBegin service con addr = some after) :
    after.world.mConnections = service.world.mConnections ∧ after.pc = service.pc ∧
      connectBegin { service with world := service.world.setConnections list } con addr =
        some { after with world := after.world.setConnections list } := by
  simp only [connectBegin, Option.bind_eq_bind, Option.bind_eq_some_iff] at begins
  obtain ⟨object, found, result⟩ := begins
  cases result
  refine ⟨?_, rfl, ?_⟩
  · exact ((setState_lists (service.world.put con (addressed object addr service.mServiceId)) con
      .inProgress).trans (incr_lists _ con)).connections
  · simp [connectBegin, found, World.setState, World.counterIncr, World.put, World.setConnections]

theorem service_frame (list : Connections) (isUser : label.byUser = true)
    (stepped : ServiceWorker.step service label = some after) :
    after.world.mConnections = service.world.mConnections ∧ after.pc = service.pc ∧
      ServiceWorker.step { service with world := service.world.setConnections list } label =
        some { after with world := after.world.setConnections list } := by
  rw [ServiceWorker.step, if_pos isUser] at stepped
  rw [ServiceWorker.step, if_pos isUser]
  cases label with
  | userConnect con addr =>
      simp only [userStep] at stepped ⊢
      split at stepped
      case isFalse => cases stepped
      case isTrue held =>
        obtain ⟨lists, pc, there⟩ := connectBegin_unlists list stepped
        exact ⟨lists, pc, (if_pos held).trans there⟩
  | userConnectPush con granted =>
      simp only [userStep] at stepped ⊢
      split at stepped
      case isFalse => cases stepped
      case isTrue may =>
        cases stepped
        exact ⟨rfl, rfl, if_pos may⟩
  | userRead con dst =>
      obtain ⟨world, reads, rfl⟩ := Option.map_eq_some_iff.mp stepped
      obtain ⟨lists, there⟩ := userRead_unlists list reads
      exact ⟨lists, rfl, by simp only [userStep, there, Option.map_some]⟩
  | userDestroy con =>
      obtain ⟨world, destroys, rfl⟩ := Option.map_eq_some_iff.mp stepped
      obtain ⟨lists, there⟩ := userDestroy_unlists list destroys
      exact ⟨lists, rfl, by simp only [userStep, there, Option.map_some]⟩
  | arrive number bytes =>
      obtain ⟨world, arrives, rfl⟩ := Option.map_eq_some_iff.mp stepped
      obtain ⟨lists, there⟩ := arrive_unlists list arrives
      exact ⟨lists, rfl, by simp only [userStep, there, Option.map_some]⟩
  | _ => cases isUser

/-- A user's call takes no reference away that is left over. -/
theorem user_surplus (covered : Covered service) (isUser : label.byUser = true)
    (stepped : ServiceWorker.step service label = some after) (con : ConRef) :
    surplus service con ≤ surplus after con := by
  have level : ∀ {world : World}, SameReferences service.world world →
      surplus service con ≤ surplus { service with world := world } con := by
    intro world same
    exact Int.le_of_eq
      ((@same_place service { service with world := world } covered same rfl rfl).2 con).symm
  rw [ServiceWorker.step, if_pos isUser] at stepped
  cases label with
  | userConnect other addr =>
      simp only [userStep] at stepped
      split at stepped
      case isFalse => cases stepped
      case isTrue held => exact Int.le_of_eq ((connectBegin_covered covered held stepped).2 con).symm
  | userConnectPush other granted =>
      simp only [userStep] at stepped
      split at stepped
      case isFalse => cases stepped
      case isTrue may =>
        cases stepped
        have fewer := (connectPush_holders may.1 may.2.1 granted con).1
        have counters : counter (connectPush service other granted).world con =
          counter service.world con := rfl
        rw [surplus, surplus, counters]
        omega
  | userRead other dst =>
      obtain ⟨world, reads, rfl⟩ := Option.map_eq_some_iff.mp stepped
      exact level (userRead_references reads)
  | userDestroy other =>
      obtain ⟨world, destroys, rfl⟩ := Option.map_eq_some_iff.mp stepped
      exact Int.le_of_eq ((userDestroy_covered covered destroys).2 con).symm
  | arrive number bytes =>
      obtain ⟨world, arrives, rfl⟩ := Option.map_eq_some_iff.mp stepped
      exact level (arrive_references arrives)
  | _ => cases isUser

theorem service_carries : Carries serviceKind ClosesOwn SettlesService SpareService where
  moves {service after label} settles own closes stepped :=
    ⟨step_covered settles.covered stepped,
      step_staged settles.covered settles.staged own.idle stepped,
      step_roster settles.covered settles.staged settles.roster own.idle (closesOwn_fresh own) stepped,
      step_settled settles.covered settles.staged settles.roster own closes stepped settles.settled⟩
  shuts {service after label number} settles closes stepped := by
    obtain ⟨closing, peer, pc, isStill, rfl⟩ := service_closing closes stepped
    exact service_shut settles closing peer isStill
  drops settles spare shared := service_drop settles spare shared
  stays {service after label con} settles spare _ isUser stepped := by
    obtain ⟨_, pc, _⟩ := service_frame .create isUser stepped
    have level := user_surplus settles.covered isUser stepped con
    exact ⟨by rw [pc]; exact spare.isStill, Int.le_trans spare.surplus level⟩
  users {service label} isUser := by
    cases label <;> first | rfl | cases isUser
  unlists _ own := ⟨own.idle, own.own⟩
  frame {service after label list con} _ isUser stepped := by
    obtain ⟨lists, _, there⟩ := service_frame list isUser stepped
    exact ⟨lists, there⟩

end Services

section Runs

/-- A close with nobody in between is the close of the worker that takes it as one step. -/
theorem closing_whole {Worker Moves : Type} (kind : Kind Worker Moves) {before after : Worker}
    {number : Nat}
    (closes : kind.withWorld after ((kind.worldOf before).closeConnection number).2 = after) :
    Run (step kind) (closing kind before after number) ⟨after, none⟩ := by
  rw [close_halves] at closes
  cases found : ((kind.worldOf before).shut number).1 with
  | none =>
      rw [found] at closes
      have whole : closing kind before after number = ⟨after, none⟩ := by
        simp only [closing, found]
        exact congrArg (Interrupted.mk · none) closes
      rw [whole]
      exact .refl
  | some entry =>
      rw [found] at closes
      refine .next .drop .refl trivial ?_
      simp only [step, closing, found, Option.map_some, kind.world_with, kind.with_with]
      exact congrArg (fun worker => some (Interrupted.mk worker none)) closes

/-- The steps of a worker, as one or two of the interrupted one. -/
theorem worker_runs {Worker Moves : Type} (kind : Kind Worker Moves)
    (closes : ∀ {worker after label number}, kind.closedNumber worker label = some number →
      kind.step worker label = some after →
      kind.withWorld after ((kind.worldOf worker).closeConnection number).2 = after)
    {first last : Worker} (run : Run kind.step first last) :
    Run (step kind) (.whole first) (.whole last) := by
  induction run with
  | refl => exact .refl
  | @next worker after label _ _ stepped ih =>
      refine ih.trans ?_
      cases asked : kind.closedNumber worker label with
      | none =>
          refine .next (.move label) .refl trivial ?_
          simp [step, Interrupted.whole, stepped, asked]
      | some number =>
          have half : step kind (.whole worker) (.move label) =
              some (closing kind worker after number) := by
            simp [step, Interrupted.whole, stepped, asked]
          exact GuardedRun.trans (.next (.move label) .refl trivial half)
            (closing_whole kind (closes asked stepped))

theorem server_runs {first last : ServerWorker.Server} (run : Run ServerWorker.step first last) :
    Run (step serverKind) (.whole first) (.whole last) :=
  worker_runs serverKind (fun asked stepped => by
    obtain ⟨_, peer, rfl⟩ := server_closing asked stepped
    rfl) run

theorem service_runs {first last : ServiceWorker.Service} (run : Run ServiceWorker.step first last) :
    Run (step serviceKind) (.whole first) (.whole last) :=
  worker_runs serviceKind (fun asked stepped => by
    obtain ⟨_, peer, pc, _, rfl⟩ := service_closing asked stepped
    rfl) run

theorem server_closes_once (mServerId : Int) (number : Nat) {state : Interrupted ServerWorker.Server}
    (run : GuardedRun (step serverKind) (Spared serverKind ServerDescriptors.ClosesOwn)
      (.whole (.listening mServerId number)) state) :
    ClosedOnce state.worker.world.table.closes := by
  have settles := run_kept server_carries
    ⟨(ServerReferences.listening_covered mServerId number).1,
      ServerDescriptors.listening_routed mServerId number,
      ServerDescriptors.listening_settled mServerId number⟩ run
  have once := settles.settled.once
  rw [show (rest serverKind state).world.table = _ from rest_table serverKind state] at once
  exact once

theorem service_closes_once (mServiceId : Int) {state : Interrupted ServiceWorker.Service}
    (run : GuardedRun (step serviceKind) (Spared serviceKind ServiceDescriptors.ClosesOwn)
      (.whole (.configured mServiceId)) state) :
    ClosedOnce state.worker.world.table.closes := by
  have settles := run_kept service_carries
    ⟨ServiceReferences.configured_covered mServiceId,
      (ServiceStates.configured_staged mServiceId).1,
      ServiceDescriptors.configured_roster mServiceId,
      ServiceDescriptors.configured_settled mServiceId⟩ run
  have once := settles.settled.once
  rw [show (rest serviceKind state).world.table = _ from rest_table serviceKind state] at once
  exact once

end Runs

end Libasock.InterruptedCloses
