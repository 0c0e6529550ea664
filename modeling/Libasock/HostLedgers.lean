import Libasock.HostCreations
import Libasock.ConnectionObjects

/-!
The ledgers of a process with any number of servers and services, over whole
runs: what is live is owned by a host that has not been destroyed, or it has been
lost by one of the branches `stepWaste` names.
-/

namespace Libasock.HostLedgers
open GuardedRuns BlockLedger HostResources HostCreations
open DirectiveSlot (Role)

section Living
variable {process : Process} {cell : HostCell} {blocks descs threads : List Block}

/-- What a call on a host gives beside what the others have. -/
structure Turns (before : Process) (result : HostCell × Process)
    (blocks descs threads : List Block) (waste : Waste) : Prop where
  books : Books result.2 (result.1.blocks ++ blocks) (result.1.descs ++ descs)
    (result.1.threads ++ threads)
  losses : result.2.losses = before.losses.plus waste
  standing : Standing result.1

theorem start_spec {next : HostCell} {started : Bool} (standing : Standing cell)
    (starts : start cell started = some next)
    (books : Books process (cell.blocks ++ blocks) (cell.descs ++ descs)
      (cell.threads ++ threads)) :
    Turns process (next, process) blocks descs threads .nothing := by
  unfold start at starts
  split at starts
  · cases starts
  · rename_i configuring
    rw [ne_eq, Decidable.not_not] at configuring
    have threaded := standing.threaded (.inl configuring)
    have listening := fun server => standing.listening server (.inl configuring)
    have alive : cell.stage ≠ .destroyed := by rw [configuring]; decide
    split at starts
    · cases starts
      refine ⟨?_, rfl, ⟨fun server _ => listening server, fun _ => threaded, ?_, ?_⟩⟩
      · simpa [HostCell.blocks, HostCell.descs, HostCell.threads, alive] using books
      · intro impossible
        cases impossible
      · intro impossible
        cases impossible
    · split at starts
      · rename_i server
        cases starts
        refine ⟨?_, rfl, ⟨fun server _ => listening server, fun _ => threaded,
          fun _ => server, ?_⟩⟩
        · simpa [HostCell.blocks, HostCell.descs, HostCell.threads, alive] using books
        · intro impossible
          cases impossible
      · cases starts

theorem stop_spec (standing : Standing cell)
    (books : Books process (cell.blocks ++ blocks) (cell.descs ++ descs)
      (cell.threads ++ threads)) :
    Turns process (stop cell process) blocks descs threads .nothing := by
  by_cases running : cell.stage = .running
  · have alive : cell.stage ≠ .destroyed := by rw [running]; decide
    simp only [stop, running, if_true]
    refine ⟨⟨?_, ?_, ?_⟩, rfl, ⟨?_, ?_, ?_, fun _ => ⟨rfl, rfl⟩⟩⟩
    · have turn : (cell.blocks ++ blocks).Perm (cell.mNetNs.toList ++ (cell.self ::
          (cell.mConnections.blocks ++ (cell.mNewConnections.blocks ++ blocks)))) := by
        refine List.perm_iff_count.mpr fun block => ?_
        simp only [List.count_append, blocks_count cell alive, List.count_cons, List.count_nil]
        omega
      simpa [HostCell.blocks] using (books.memory.perm turn).release cell.mNetNs
    · have turn : (cell.descs ++ descs).Perm (cell.mServerSocket.toList ++
          (cell.mNetNsFd.toList ++ (cell.mEpollDesc :: descs))) := by
        refine List.perm_iff_count.mpr fun desc => ?_
        simp only [List.count_append, descs_count cell alive, List.count_cons, List.count_nil]
        omega
      simpa [HostCell.descs] using
        ((books.descs.perm turn).release cell.mServerSocket).release cell.mNetNsFd
    · have own : cell.threads = cell.mThread.toList := by simp [HostCell.threads, alive]
      simpa [HostCell.threads] using (own ▸ books.threads).release cell.mThread
    · simp
    · simp
    · simp
  · simp only [stop, running, if_false]
    exact ⟨books, rfl, standing⟩

def destructionWaste (cell : HostCell) : Waste :=
  if cell.stage = .failed then ⟨0, 1, 1⟩ else .nothing

theorem touched_books (alive : cell.stage ≠ .destroyed)
    (books : Books process (cell.blocks ++ blocks) (cell.descs ++ descs)
      (cell.threads ++ threads)) :
    Books { process with memory := process.memory.touch (some cell.self) } (cell.blocks ++ blocks)
      (cell.descs ++ descs) (cell.threads ++ threads) := by
  have isOwn : cell.self ∈ cell.blocks ++ blocks := by simp [HostCell.blocks, alive]
  exact ⟨books.memory.touch isOwn, books.descs, books.threads⟩

/-- A stop leaves the worker ended, and what it had given back. -/
theorem stop_stage (process : Process) (alive : cell.stage ≠ .destroyed)
    (started : cell.stage ≠ .configuring) :
    ((stop cell process).1.stage = .stopped ∧ cell.stage ≠ .failed) ∨
      ((stop cell process).1 = cell ∧ cell.stage = .failed) := by
  cases stage : cell.stage with
  | configuring => exact absurd stage started
  | destroyed => exact absurd stage alive
  | running => simp [stop, stage]
  | failed => simp [stop, stage]
  | stopped => simp [stop, stage]

theorem giveBack_spec (alive : cell.stage ≠ .destroyed)
    (books : Books process (cell.blocks ++ blocks) (cell.descs ++ descs)
      (cell.threads ++ threads)) :
    Books (giveBack cell process) blocks descs threads ∧
      (giveBack cell process).losses = process.losses.plus
        ⟨0, cell.mServerSocket.toList.length, cell.mThread.toList.length⟩ := by
  refine ⟨⟨?_, ?_, ?_⟩, ?_⟩
  · have turn : (cell.blocks ++ blocks).Perm (cell.mNewConnections.blocks ++
        (cell.mConnections.blocks ++ (cell.mNetNs.toList ++ (cell.self :: blocks)))) := by
      refine List.perm_iff_count.mpr fun block => ?_
      simp only [List.count_append, blocks_count cell alive, List.count_cons, List.count_nil]
      omega
    exact ((destroyVector_spec (destroyVector_spec (books.memory.perm turn))).release
      cell.mNetNs).release (some cell.self)
  · have turn : (cell.descs ++ descs).Perm (cell.mEpollDesc :: (cell.mNetNsFd.toList ++
        (cell.mServerSocket.toList ++ descs))) := by
      refine List.perm_iff_count.mpr fun desc => ?_
      simp only [List.count_append, descs_count cell alive, List.count_cons, List.count_nil]
      omega
    have closed := (books.descs.perm turn).release (some cell.mEpollDesc)
    exact (closed.release cell.mNetNsFd).drop cell.mServerSocket
  · have own : cell.threads = cell.mThread.toList := by simp [HostCell.threads, alive]
    exact (own ▸ books.threads).drop cell.mThread
  · simp [giveBack, Process.losses, Waste.plus, Nat.add_comm]

theorem destroy_spec (alive : cell.stage ≠ .destroyed) (started : cell.stage ≠ .configuring)
    (standing : Standing cell)
    (books : Books process (cell.blocks ++ blocks) (cell.descs ++ descs)
      (cell.threads ++ threads)) :
    Turns process (destroy cell process) blocks descs threads (destructionWaste cell) := by
  let touched := { process with memory := process.memory.touch (some cell.self) }
  have turned : Turns touched (stop cell touched) blocks descs threads .nothing :=
    stop_spec standing (touched_books alive books)
  have stage := stop_stage touched alive started
  have shape : destroy cell process = ({ (stop cell touched).1 with stage := .destroyed },
      giveBack (stop cell touched).1 (stop cell touched).2) := rfl
  rw [shape]
  have stillAlive : (stop cell touched).1.stage ≠ .destroyed := by
    rcases stage with ⟨stopped, -⟩ | ⟨same, -⟩
    · rw [stopped]
      decide
    · rw [same]
      exact alive
  obtain ⟨left, losses⟩ := giveBack_spec stillAlive turned.books
  refine ⟨?_, ?_, ⟨?_, ?_, ?_, ?_⟩⟩
  · simpa [HostCell.blocks, HostCell.descs, HostCell.threads] using left
  · rw [losses, turned.losses]
    rcases stage with ⟨stopped, unfailed⟩ | ⟨same, failed⟩
    · obtain ⟨closed, joined⟩ := turned.standing.stopped stopped
      simp only [closed, joined, destructionWaste, unfailed, if_false]
      rfl
    · have socket := standing.listening (standing.failed failed) (.inr (.inr failed))
      have thread := standing.threaded (.inr (.inr failed))
      obtain ⟨sockD, listens⟩ := Option.isSome_iff_exists.mp socket
      obtain ⟨worker, runs⟩ := Option.isSome_iff_exists.mp thread
      simp only [same, listens, runs, destructionWaste, failed, if_true]
      rfl
  all_goals simp

theorem use_spec (alive : cell.stage ≠ .destroyed)
    (books : Books process (cell.blocks ++ blocks) (cell.descs ++ descs)
      (cell.threads ++ threads)) :
    Books (use cell process) (cell.blocks ++ blocks) (cell.descs ++ descs)
        (cell.threads ++ threads) ∧ (use cell process).losses = process.losses := by
  have ownFirst : cell.mConnections.self ∈ cell.blocks ++ blocks := by
    simp [HostCell.blocks, VectorCell.blocks, alive]
  have ownSecond : cell.mNewConnections.self ∈ cell.blocks ++ blocks := by
    simp [HostCell.blocks, VectorCell.blocks, alive]
  have touched := (touched_books alive books).memory
  exact ⟨⟨(touched.touch ownFirst).touch ownSecond, books.descs, books.threads⟩, rfl⟩

/-- The block of one list, set apart from the host's other blocks. -/
theorem vector_apart (blocks : List Block) (alive : cell.stage ≠ .destroyed) (which : Which)
    (vector : VectorCell) :
    ∃ others, (cell.blocks ++ blocks).Perm ((cell.vector which).blocks ++ others) ∧
      ((cell.setVector which vector).blocks ++ blocks).Perm (vector.blocks ++ others) := by
  cases which with
  | mConnections =>
      refine ⟨cell.self :: (cell.mNewConnections.blocks ++ (cell.mNetNs.toList ++ blocks)), ?_, ?_⟩
      all_goals
        refine List.perm_iff_count.mpr fun block => ?_
        simp only [HostCell.setVector, HostCell.vector, HostCell.blocks, alive, if_false,
          List.count_cons, List.count_append]
        omega
  | mNewConnections =>
      refine ⟨cell.self :: (cell.mConnections.blocks ++ (cell.mNetNs.toList ++ blocks)), ?_, ?_⟩
      all_goals
        refine List.perm_iff_count.mpr fun block => ?_
        simp only [HostCell.setVector, HostCell.vector, HostCell.blocks, alive, if_false,
          List.count_cons, List.count_append]
        omega

def growthWaste (cell : HostCell) (which : Which) (granted : Bool) : Waste :=
  if !granted && (cell.vector which).mData.isSome then ⟨1, 0, 0⟩ else .nothing

theorem growVector_spec {memory : Ledger} {vector : VectorCell} {owned : List Block}
    (granted : Bool) (holds : memory.Holds (vector.blocks ++ owned)) :
    (growVector memory vector granted).2.Holds
        ((growVector memory vector granted).1.blocks ++ owned) ∧
      (growVector memory vector granted).2.lost.length = memory.lost.length +
        if !granted && vector.mData.isSome then 1 else 0 := by
  have touched := holds.touch (List.mem_append_left owned List.mem_cons_self)
  have turn : (vector.blocks ++ owned).Perm (vector.mData.toList ++ vector.self :: owned) :=
    List.perm_middle.symm
  cases granted with
  | false =>
      refine ⟨(touched.perm turn).drop vector.mData, ?_⟩
      cases data : vector.mData <;> simp [growVector, data]
  | true =>
      have moved := ((touched.perm turn).release vector.mData).take
      refine ⟨moved.perm (List.Perm.swap _ _ owned), rfl⟩

theorem grow_spec (alive : cell.stage ≠ .destroyed) (standing : Standing cell) (which : Which)
    (granted : Bool) (books : Books process (cell.blocks ++ blocks) (cell.descs ++ descs)
      (cell.threads ++ threads)) :
    Turns process (grow cell which granted process) blocks descs threads
      (growthWaste cell which granted) := by
  have touched := (touched_books alive books).memory
  let memory := process.memory.touch (some cell.self)
  let result := growVector memory (cell.vector which) granted
  obtain ⟨others, before, after⟩ := vector_apart blocks alive which result.1
  obtain ⟨grown, losses⟩ := growVector_spec granted (touched.perm before)
  have shape : grow cell which granted process =
      (cell.setVector which result.1, { process with memory := result.2 }) := rfl
  have stage : (cell.setVector which result.1).stage = cell.stage := by cases which <;> rfl
  have sameDescs : (cell.setVector which result.1).descs = cell.descs := by cases which <;> rfl
  have sameThreads : (cell.setVector which result.1).threads = cell.threads := by
    cases which <;> rfl
  rw [shape]
  refine ⟨⟨grown.perm after.symm, ?_, ?_⟩, ?_, ?_⟩
  · rw [sameDescs]
    exact books.descs
  · rw [sameThreads]
    exact books.threads
  · show Process.losses { process with memory := result.2 } = _
    simp only [Process.losses, show result.2.lost.length = _ from losses, growthWaste]
    split <;> rfl
  · cases which <;>
      exact ⟨standing.listening, standing.threaded, standing.failed, standing.stopped⟩

end Living

section Keeping
variable {world after : World} {cell : HostCell} {label : Label} {host : Nat}

structure Kept (world : World) : Prop where
  books : Books world.process (world.hosts.flatMap HostCell.blocks)
    (world.hosts.flatMap HostCell.descs) (world.hosts.flatMap HostCell.threads)
  standing : ∀ cell ∈ world.hosts, Standing cell
  counted : world.process.losses = world.wasted

/-- A call on one host leaves the others as they are. -/
theorem turn_kept (kept : Kept world) (found : world.hosts[host]? = some cell)
    {result : HostCell × Process} {waste : Waste}
    (turns : ∀ blocks descs threads, Books world.process (cell.blocks ++ blocks)
      (cell.descs ++ descs) (cell.threads ++ threads) →
      Turns world.process result blocks descs threads waste) :
    Kept { world.update host result with wasted := world.wasted.plus waste } := by
  obtain ⟨blocks, allBlocks, nextBlocks⟩ := holders_apart HostCell.blocks found
  obtain ⟨descs, allDescs, nextDescs⟩ := holders_apart HostCell.descs found
  obtain ⟨threads, allThreads, nextThreads⟩ := holders_apart HostCell.threads found
  have turned := turns blocks descs threads ⟨kept.books.memory.perm allBlocks,
    kept.books.descs.perm allDescs, kept.books.threads.perm allThreads⟩
  refine ⟨⟨turned.books.memory.perm (nextBlocks result.1).symm,
    turned.books.descs.perm (nextDescs result.1).symm,
    turned.books.threads.perm (nextThreads result.1).symm⟩, ?_, ?_⟩
  · intro other member
    rcases List.mem_or_eq_of_mem_set member with older | rfl
    · exact kept.standing other older
    · exact turned.standing
  · rw [← kept.counted]
    exact turned.losses

theorem create_kept (kept : Kept world) (role : Role) (netNs : Option String)
    (answers : HostAnswers) :
    Kept
      { process := (createNs role netNs answers world.process).2
        hosts := world.hosts ++ (createNs role netNs answers world.process).1.toList
        wasted := world.wasted.plus (creationWaste role netNs answers) } := by
  obtain ⟨yields, standing⟩ :=
    createNs_spec role netNs answers kept.books
  have turn : ∀ part : HostCell → List Block,
      ((createNs role netNs answers world.process).1.elim [] part ++ world.hosts.flatMap part).Perm
        ((world.hosts ++ (createNs role netNs answers world.process).1.toList).flatMap part) := by
    intro part
    rw [List.flatMap_append]
    refine List.perm_append_comm.trans (List.Perm.append_left _ (List.Perm.of_eq ?_))
    cases (createNs role netNs answers world.process).1 <;> simp
  refine ⟨⟨yields.books.memory.perm (turn _), yields.books.descs.perm (turn _),
    yields.books.threads.perm (turn _)⟩, ?_, ?_⟩
  · intro cell member
    rcases List.mem_append.mp member with older | newer
    · exact kept.standing cell older
    · exact standing cell (Option.mem_toList.mp newer)
  · rw [← kept.counted]
    exact yields.losses

theorem step_kept (kept : Kept world) (managed : Managed world label)
    (stepped : step world label = some after) : Kept after := by
  simp only [step, Option.map_eq_some_iff] at stepped
  obtain ⟨middle, performed, rfl⟩ := stepped
  cases label with
  | create role netNs answers =>
      cases performed
      exact create_kept kept role netNs answers
  | start host started =>
      obtain ⟨cell, found, performed⟩ := Option.bind_eq_some_iff.mp performed
      obtain ⟨next, starts, rfl⟩ := Option.map_eq_some_iff.mp performed
      have standing := kept.standing cell (List.mem_of_getElem? found)
      exact turn_kept kept found fun _ _ _ books => start_spec standing starts books
  | use host =>
      obtain ⟨cell, found, rfl⟩ := Option.map_eq_some_iff.mp performed
      obtain ⟨alive, -⟩ := managed host rfl cell found
      obtain ⟨blocks, allBlocks, -⟩ := holders_apart HostCell.blocks found
      obtain ⟨descs, allDescs, -⟩ := holders_apart HostCell.descs found
      obtain ⟨threads, allThreads, -⟩ := holders_apart HostCell.threads found
      obtain ⟨used, losses⟩ := use_spec alive ⟨kept.books.memory.perm allBlocks,
        kept.books.descs.perm allDescs, kept.books.threads.perm allThreads⟩
      exact ⟨⟨used.memory.perm allBlocks.symm, used.descs.perm allDescs.symm,
        used.threads.perm allThreads.symm⟩, kept.standing, losses.trans kept.counted⟩
  | grow host which granted =>
      obtain ⟨cell, found, rfl⟩ := Option.map_eq_some_iff.mp performed
      obtain ⟨alive, -⟩ := managed host rfl cell found
      have standing := kept.standing cell (List.mem_of_getElem? found)
      simp only [stepWaste, found, Option.any_some]
      exact turn_kept kept found fun _ _ _ books => grow_spec alive standing which granted books
  | stop host =>
      obtain ⟨cell, found, rfl⟩ := Option.map_eq_some_iff.mp performed
      have standing := kept.standing cell (List.mem_of_getElem? found)
      exact turn_kept kept found fun _ _ _ books => stop_spec standing books
  | destroy host =>
      obtain ⟨cell, found, rfl⟩ := Option.map_eq_some_iff.mp performed
      obtain ⟨alive, started⟩ := managed host rfl cell found
      have standing := kept.standing cell (List.mem_of_getElem? found)
      simp only [stepWaste, found, Option.any_some, decide_eq_true_eq]
      exact turn_kept kept found fun _ _ _ books => destroy_spec alive (started rfl) standing books

theorem run_kept (run : GuardedRun step Managed .empty world) : Kept world :=
  run.invariant Kept (fun _ _ _ kept managed stepped => step_kept kept managed stepped)
    ⟨⟨Ledger.empty_holds, Ledger.empty_holds, Ledger.empty_holds⟩, by simp [World.empty], rfl⟩

end Keeping

section Results

/-- Everything live is owned or lost, once, and so much is lost. -/
structure Balanced (ledger : Ledger) (owned : List Block) (lost : Nat) : Prop where
  sound : ledger.heap.sound = true
  once : ledger.heap.live.Nodup
  live : ledger.heap.live.Perm (owned ++ ledger.lost)
  counted : ledger.lost.length = lost

theorem holds_balanced {ledger : Ledger} {owned : List Block} {lost : Nat}
    (holds : ledger.Holds owned) (counted : ledger.lost.length = lost) :
    Balanced ledger owned lost :=
  ⟨holds.sound, holds.once, holds.live, counted⟩

theorem Balanced.remains {ledger : Ledger} {lost : Nat} (balanced : Balanced ledger [] lost) :
    ledger.heap.live.length = lost := by
  rw [balanced.live.length_eq, List.nil_append, balanced.counted]

theorem resources_accounted (world : World) (run : GuardedRun step Managed .empty world) :
    Balanced world.process.memory (world.hosts.flatMap HostCell.blocks) world.wasted.blocks ∧
    Balanced world.process.descs (world.hosts.flatMap HostCell.descs) world.wasted.descs ∧
    Balanced world.process.threads (world.hosts.flatMap HostCell.threads) world.wasted.threads ∧
    ((∀ cell ∈ world.hosts, cell.stage = .destroyed) →
      world.process.memory.heap.live.length = world.wasted.blocks ∧
      world.process.descs.heap.live.length = world.wasted.descs ∧
      world.process.threads.heap.live.length = world.wasted.threads) := by
  have kept := run_kept run
  have memory := holds_balanced kept.books.memory (congrArg Waste.blocks kept.counted)
  have descs := holds_balanced kept.books.descs (congrArg Waste.descs kept.counted)
  have threads := holds_balanced kept.books.threads (congrArg Waste.threads kept.counted)
  refine ⟨memory, descs, threads, ?_⟩
  intro destroyed
  have nothing : ∀ part : HostCell → List Block,
      (∀ cell : HostCell, cell.stage = .destroyed → part cell = []) →
        world.hosts.flatMap part = [] := by
    intro part noPart
    exact List.flatMap_eq_nil_iff.mpr fun cell member => noPart cell (destroyed cell member)
  rw [nothing HostCell.blocks fun cell gone => by simp [HostCell.blocks, gone]] at memory
  rw [nothing HostCell.descs fun cell gone => by simp [HostCell.descs, gone]] at descs
  rw [nothing HostCell.threads fun cell gone => by simp [HostCell.threads, gone]] at threads
  exact ⟨memory.remains, descs.remains, threads.remains⟩

def granted : HostAnswers :=
  { objectAlloc := true, mutexInit := true, epollCreate := true
    connections := ⟨true, ConnectionObjects.zeroed⟩
    newConnections := ⟨true, ConnectionObjects.zeroed⟩
    strdup := true, pthreadCreate := true, nms := ⟨true, true⟩
    socket := true, setsockopt := true }

-- A server that cannot listen leaves its socket and its thread, a service without a name its epoll.
theorem failures_remain : ∃ world, GuardedRun step Managed .empty world ∧
    world.process.memory.heap.live.length = 0 ∧ world.process.descs.heap.live.length = 2 ∧
      world.process.threads.heap.live.length = 1 := by
  obtain ⟨world, run, tested⟩ := replayed step Managed .empty
    [.create .server (some "/var/run/netns/left") granted, .start 0 false,
      .create .service (some "") { granted with strdup := false },
      .create .service (some "") granted, .start 1 true, .grow 1 .mNewConnections true,
      .destroy 0, .destroy 1]
    (fun world => decide (world.wasted = ⟨0, 2, 1⟩) &&
      world.hosts.all fun cell => decide (cell.stage = .destroyed))
    (by decide)
  simp only [Bool.and_eq_true, decide_eq_true_eq, List.all_eq_true] at tested
  have remains := (resources_accounted world run).2.2.2 tested.2
  rw [tested.1] at remains
  exact ⟨world, run, remains⟩

end Results

end Libasock.HostLedgers
