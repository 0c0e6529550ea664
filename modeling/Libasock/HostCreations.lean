import Libasock.HostResources

/-!
What the creation of a server or a service owns and loses, branch by branch: the
object with its lists, the copy of the namespace, the worker's beginning.
-/

namespace Libasock.HostCreations
open BlockLedger HostResources
open DirectiveSlot (Role)
open VectorModel (CreateAnswers)

section Owning

/-- The ledgers of a process, with what is owned of each. -/
structure Books (process : Process) (blocks descs threads : List Block) : Prop where
  memory : process.memory.Holds blocks
  descs : process.descs.Holds descs
  threads : process.threads.Holds threads

@[simp] theorem plus_nothing (waste : Waste) : waste.plus .nothing = waste := rfl

variable {process after : Process} {cell : HostCell} {owned blocks descs threads : List Block}

theorem createVector_spec (answers : CreateAnswers) {memory : Ledger}
    (holds : memory.Holds owned) :
    (createVector answers memory).1.isSome = vectorGranted answers ∧
      (createVector answers memory).2.Holds
        ((createVector answers memory).1.elim [] VectorCell.blocks ++ owned) ∧
      (createVector answers memory).2.lost = memory.lost := by
  have first := holds.take
  cases struct : answers.structAlloc with
  | false => simpa [createVector, vectorGranted, struct] using holds
  | true =>
      cases data : answers.dataAlloc with
      | none =>
          have freed := first.release (some memory.fresh)
          simpa [createVector, vectorGranted, struct, data] using freed
      | some junk =>
          have second := first.take.perm (List.Perm.swap _ _ owned)
          simpa [createVector, vectorGranted, struct, data, VectorCell.blocks] using second

/-- A list is created here exactly where `asock_connections_create` returns one. -/
theorem createVector_agrees (answers : CreateAnswers) (memory : Ledger)
    (holds : memory.Holds owned) (capacity : Nat) :
    (createVector answers memory).1.isSome =
      (ConnectionVectors.connectionsCreate answers capacity).isSome := by
  rw [(createVector_spec answers holds).1, vectorGranted]
  cases struct : answers.structAlloc <;> cases data : answers.dataAlloc <;>
    simp [ConnectionVectors.connectionsCreate, VectorModel.AsockVector.create, struct, data,
      ByteBlocks.malloc]

theorem destroyVector_spec {memory : Ledger} {vector : VectorCell}
    (holds : memory.Holds (vector.blocks ++ owned)) :
    (destroyVector memory vector).Holds owned := by
  have touched := holds.touch (List.mem_append_left owned List.mem_cons_self)
  have turn : (vector.blocks ++ owned).Perm (vector.mData.toList ++ vector.self :: owned) :=
    List.perm_middle.symm
  exact ((touched.perm turn).release vector.mData).release (some vector.self)

@[simp] theorem destroyVector_lost (memory : Ledger) (vector : VectorCell) :
    (destroyVector memory vector).lost = memory.lost := rfl

theorem blocks_count (cell : HostCell) (alive : cell.stage ≠ .destroyed) (block : Block) :
    cell.blocks.count block = [cell.self].count block + (cell.mConnections.blocks.count block +
      (cell.mNewConnections.blocks.count block + cell.mNetNs.toList.count block)) := by
  simp only [HostCell.blocks, alive, if_false, List.count_cons, List.count_append, List.count_nil]
  omega

theorem descs_count (cell : HostCell) (alive : cell.stage ≠ .destroyed) (desc : Block) :
    cell.descs.count desc = [cell.mEpollDesc].count desc +
      (cell.mServerSocket.toList.count desc + cell.mNetNsFd.toList.count desc) := by
  simp only [HostCell.descs, alive, if_false, List.count_cons, List.count_append, List.count_nil]
  omega

theorem freeHost_spec {memory : Ledger} (alive : cell.stage ≠ .destroyed)
    (holds : memory.Holds (cell.blocks ++ owned)) :
    (freeHost cell memory).Holds (cell.mNetNs.toList ++ owned) := by
  have turn : (cell.blocks ++ owned).Perm (cell.mNewConnections.blocks ++
      (cell.mConnections.blocks ++ (cell.self :: (cell.mNetNs.toList ++ owned)))) := by
    refine List.perm_iff_count.mpr fun block => ?_
    simp only [List.count_append, blocks_count cell alive, List.count_cons, List.count_nil]
    omega
  exact (destroyVector_spec (destroyVector_spec (holds.perm turn))).release (some cell.self)

@[simp] theorem freeHost_lost (cell : HostCell) (memory : Ledger) :
    (freeHost cell memory).lost = memory.lost := rfl

/-- A host that is not to be, with the descriptors and the thread it has got. -/
theorem abandon_spec (alive : cell.stage ≠ .destroyed) (socketless : cell.mServerSocket = none)
    (books : Books process (cell.blocks ++ blocks) (cell.descs ++ descs)
      (cell.threads ++ threads)) :
    Books (abandon cell process) blocks descs threads ∧
      (abandon cell process).losses = process.losses.plus ⟨cell.mNetNs.toList.length,
        cell.mNetNsFd.toList.length, cell.mThread.toList.length⟩ := by
  refine ⟨⟨?_, ?_, ?_⟩, ?_⟩
  · exact (freeHost_spec alive books.memory).drop cell.mNetNs
  · have turn : (cell.descs ++ descs).Perm
        (cell.mEpollDesc :: (cell.mNetNsFd.toList ++ descs)) := by
      simp [HostCell.descs, alive, socketless]
    exact ((books.descs.perm turn).release (some cell.mEpollDesc)).drop cell.mNetNsFd
  · have own : cell.threads = cell.mThread.toList := by simp [HostCell.threads, alive]
    exact (own ▸ books.threads).drop cell.mThread
  · simp only [abandon, Process.losses, Waste.plus, Ledger.drop_lost, freeHost_lost,
      Ledger.release_lost, List.length_append, Nat.add_comm]

end Owning

section Creating
variable {process : Process} {cell : HostCell} {role : Role} {netNs : Option String}
  {answers : HostAnswers} {blocks descs threads : List Block}

/-- What a creation gives beside what there was before. -/
structure Yields (before : Process) (result : Option HostCell × Process)
    (blocks descs threads : List Block) (waste : Waste) : Prop where
  books : Books result.2 (result.1.elim [] HostCell.blocks ++ blocks)
    (result.1.elim [] HostCell.descs ++ descs) (result.1.elim [] HostCell.threads ++ threads)
  losses : result.2.losses = before.losses.plus waste

structure Newborn (role : Role) (cell : HostCell) : Prop where
  role : cell.role = role
  stage : cell.stage = .configuring
  socketless : cell.mServerSocket = none
  nameless : cell.mNetNs = none
  outside : cell.mNetNsFd = none
  threadless : cell.mThread = none

theorem Newborn.alive (newborn : Newborn role cell) : cell.stage ≠ .destroyed := by
  rw [newborn.stage]
  decide

def allocationWaste (answers : HostAnswers) : Waste :=
  if begun answers && !listed answers then ⟨0, 1, 0⟩ else .nothing

/-- What `allocate` has to show for its result. -/
def Allocates (role : Role) (answers : HostAnswers) (before : Process)
    (result : Option HostCell × Process) (blocks descs threads : List Block) : Prop :=
  Yields before result blocks descs threads (allocationWaste answers) ∧
    result.1.isSome = (begun answers && listed answers) ∧ ∀ cell ∈ result.1, Newborn role cell

/-- Without its lists the object is freed, and the `epoll` descriptor forgotten. -/
theorem unlisted_allocates {memory : Ledger} (role : Role)
    (books : Books process blocks descs threads) (granted : begun answers = true)
    (refused : listed answers = false) (holds : memory.Holds blocks)
    (same : memory.lost = process.memory.lost) :
    Allocates role answers process
      (none, ⟨memory, process.descs.take.drop (some process.descs.fresh), process.threads⟩)
      blocks descs threads := by
  have epoll := books.descs.take
  refine ⟨⟨⟨holds, epoll.drop (some process.descs.fresh), books.threads⟩, ?_⟩, ?_, ?_⟩
  · simp [Process.losses, same, allocationWaste, granted, refused, Waste.plus]
  · simp [refused]
  · simp

theorem listed_allocates {memory : Ledger} {connections newConnections : VectorCell} (role : Role)
    (books : Books process blocks descs threads) (granted : begun answers = true)
    (allowed : listed answers = true)
    (holds : memory.Holds (newConnections.blocks ++
      (connections.blocks ++ process.memory.fresh :: blocks)))
    (same : memory.lost = process.memory.lost) :
    Allocates role answers process
      (some ⟨role, process.memory.fresh, connections, newConnections, process.descs.fresh, none,
        none, none, none, .configuring⟩, ⟨memory, process.descs.take, process.threads⟩)
      blocks descs threads := by
  refine ⟨⟨⟨?_, books.descs.take, books.threads⟩, ?_⟩, ?_, ?_⟩
  · refine holds.perm (List.perm_iff_count.mpr fun block => ?_)
    simp [HostCell.blocks, List.count_cons]
    omega
  · simp [Process.losses, same, allocationWaste, allowed]
  · simp [granted, allowed]
  · intro cell member
    cases member
    exact ⟨rfl, rfl, rfl, rfl, rfl, rfl⟩

theorem begun_allocates (role : Role) (books : Books process blocks descs threads)
    (granted : begun answers = true) :
    Allocates role answers process (allocate role answers process) blocks descs threads := by
  have object := books.memory.take
  obtain ⟨struct, mutex, epoll⟩ : answers.objectAlloc = true ∧ answers.mutexInit = true ∧
      answers.epollCreate = true := by
    simpa [begun, and_assoc] using granted
  obtain ⟨asked, first, same⟩ := createVector_spec answers.connections object
  cases made : createVector answers.connections process.memory.take with
  | mk connections memory =>
      rw [made] at asked first same
      cases connections with
      | none =>
          have refused : listed answers = false := by
            simp [listed, show vectorGranted answers.connections = false from asked.symm]
          have released := unlisted_allocates role books granted refused
            (first.release (some process.memory.fresh)) same
          simpa [allocate, struct, mutex, epoll, made] using released
      | some connections =>
          obtain ⟨asksToo, second, sameToo⟩ := createVector_spec answers.newConnections first
          cases makes : createVector answers.newConnections memory with
          | mk newConnections last =>
              rw [makes] at asksToo second sameToo
              cases newConnections with
              | none =>
                  have refused : listed answers = false := by
                    simp [listed,
                      show vectorGranted answers.newConnections = false from asksToo.symm]
                  have released := unlisted_allocates role books granted refused
                    ((destroyVector_spec second).release (some process.memory.fresh))
                    (sameToo.trans same)
                  simpa [allocate, struct, mutex, epoll, made, makes] using released
              | some newConnections =>
                  have allowed : listed answers = true := by
                    simp [listed, show vectorGranted answers.connections = true from asked.symm,
                      show vectorGranted answers.newConnections = true from asksToo.symm]
                  have kept := listed_allocates role books granted allowed second
                    (sameToo.trans same)
                  simpa [allocate, struct, mutex, epoll, made, makes] using kept

theorem allocate_spec (role : Role) (answers : HostAnswers)
    (books : Books process blocks descs threads) :
    Allocates role answers process (allocate role answers process) blocks descs threads := by
  cases struct : answers.objectAlloc with
  | false => simpa [Allocates, allocate, allocationWaste, begun, struct] using ⟨books, rfl⟩
  | true =>
      by_cases early : answers.mutexInit = false ∨ answers.epollCreate = false
      · have freed := books.memory.take.release (some process.memory.fresh)
        have refused : begun answers = false := by
          rcases early with refused | refused <;> simp [begun, struct, refused]
        simpa [Allocates, allocate, allocationWaste, struct, early, refused] using
          ⟨⟨freed, books.descs, books.threads⟩, rfl⟩
      · have granted : begun answers = true := by
          simp only [not_or, Bool.not_eq_false] at early
          simp [begun, struct, early]
        exact begun_allocates role books granted

/-- What the worker's attempt to enter its namespace leaves. -/
structure Entered (netNs : Option String) (answers : HostAnswers) (cell : HostCell)
    (before : Process) (result : HostCell × Process) (blocks descs threads : List Block) :
    Prop where
  books : Books result.2 (result.1.blocks ++ blocks) (result.1.descs ++ descs)
    (result.1.threads ++ threads)
  losses : result.2.losses = before.losses
  role : result.1.role = cell.role
  stage : result.1.stage = cell.stage
  thread : result.1.mThread = cell.mThread
  socketless : result.1.mServerSocket = none
  name : result.1.mNetNs.toList.length = (keepsName netNs answers).toNat
  nms : result.1.mNetNsFd.toList.length = (entersNamespace netNs answers).toNat

theorem unnamed_entered (alive : cell.stage ≠ .destroyed) {cell' : HostCell}
    (same : cell' = { cell with mNetNs := none }) (books : Books process
      (cell.blocks ++ blocks) (cell.descs ++ descs) (cell.threads ++ threads)) :
    (process.memory.release cell.mNetNs).Holds (cell'.blocks ++ blocks) := by
  have turn : (cell.blocks ++ blocks).Perm (cell.mNetNs.toList ++ (cell'.blocks ++ blocks)) := by
    subst same
    refine List.perm_iff_count.mpr fun block => ?_
    simp only [List.count_append, blocks_count cell alive,
      blocks_count { cell with mNetNs := none } alive, Option.toList_none, List.count_nil]
    omega
  exact (books.memory.perm turn).release cell.mNetNs

theorem changeNamespace_spec (alive : cell.stage ≠ .destroyed)
    (socketless : cell.mServerSocket = none) (outside : cell.mNetNsFd = none)
    (name : String) (named : cell.mNetNs.isSome = true)
    (books : Books process (cell.blocks ++ blocks) (cell.descs ++ descs)
      (cell.threads ++ threads)) :
    Entered (some name) answers cell process (changeNamespace name answers.nms cell process)
      blocks descs threads := by
  have single : cell.mNetNs.toList.length = 1 := by
    obtain ⟨block, found⟩ := Option.isSome_iff_exists.mp named
    rw [found]
    rfl
  by_cases empty : name = ""
  · have unchanged : changeNamespace name answers.nms cell process = (cell, process) := by
      simp [changeNamespace, empty, ← outside]
    rw [unchanged]
    exact ⟨books, rfl, rfl, rfl, rfl, socketless, by simp [single, keepsName, empty],
      by simp [outside, entersNamespace, empty]⟩
  · have unnamed := unnamed_entered alive rfl books
    have opening := books.descs.take
    cases opened : answers.nms.opened with
    | false =>
        have shape : changeNamespace name answers.nms cell process =
            ({ cell with mNetNs := none },
              { process with memory := process.memory.release cell.mNetNs }) := by
          simp [changeNamespace, empty, opened]
        rw [shape]
        exact ⟨⟨unnamed, books.descs, books.threads⟩, rfl, rfl, rfl, rfl, socketless,
          by simp [keepsName, empty, opened], by simp [outside, entersNamespace, opened]⟩
    | true =>
        cases entered : answers.nms.entered with
        | false =>
            have closed := opening.release (some process.descs.fresh)
            have shape : changeNamespace name answers.nms cell process =
                ({ cell with mNetNs := none },
                  ⟨process.memory.release cell.mNetNs,
                    process.descs.take.release (some process.descs.fresh),
                    process.threads⟩) := by
              simp [changeNamespace, empty, opened, entered]
            rw [shape]
            exact ⟨⟨unnamed, closed, books.threads⟩, rfl, rfl, rfl, rfl, socketless,
              by simp [keepsName, empty, entered],
              by simp [outside, entersNamespace, entered]⟩
        | true =>
            have turn : (process.descs.fresh :: (cell.descs ++ descs)).Perm
                (({ cell with mNetNsFd := some process.descs.fresh } : HostCell).descs ++
                  descs) := by
              refine List.perm_iff_count.mpr fun desc => ?_
              simp only [List.count_cons, List.count_append, descs_count cell alive,
                descs_count { cell with mNetNsFd := some process.descs.fresh } alive, outside,
                Option.toList_none, Option.toList_some, List.count_nil]
              omega
            have shape : changeNamespace name answers.nms cell process =
                ({ cell with mNetNsFd := some process.descs.fresh },
                  { process with descs := process.descs.take }) := by
              simp [changeNamespace, empty, opened, entered]
            rw [shape]
            exact ⟨⟨books.memory, opening.perm turn, books.threads⟩, rfl, rfl, rfl, rfl,
              socketless, by simp [single, keepsName, opened, entered],
              by simp [entersNamespace, empty, opened, entered]⟩

theorem enter_spec (netNs : Option String) (answers : HostAnswers) (cell : HostCell)
    (alive : cell.stage ≠ .destroyed) (socketless : cell.mServerSocket = none)
    (outside : cell.mNetNsFd = none) (named : cell.mNetNs.isSome = netNs.isSome)
    (books : Books process (cell.blocks ++ blocks) (cell.descs ++ descs)
      (cell.threads ++ threads)) :
    ∃ entered, Entered netNs answers cell process entered blocks descs threads ∧
      threadBegin netNs answers cell process =
        if answers.socket = false then (false, entered)
        else if answers.setsockopt = false then
          (false, entered.1, { entered.2 with
            descs := entered.2.descs.take.release (some entered.2.descs.fresh) })
        else (true, { entered.1 with mServerSocket := some entered.2.descs.fresh },
          { entered.2 with descs := entered.2.descs.take }) := by
  cases netNs with
  | none =>
      have nameless : cell.mNetNs = none := by simpa using named
      exact ⟨(cell, process), ⟨books, rfl, rfl, rfl, rfl, socketless,
        by simp [nameless, keepsName], by simp [outside, entersNamespace]⟩, rfl⟩
  | some name =>
      exact ⟨changeNamespace name answers.nms cell process,
        changeNamespace_spec alive socketless outside name named books, rfl⟩

/-- What the stage says about the socket and the thread. -/
structure Standing (cell : HostCell) : Prop where
  listening : cell.role = .server → cell.stage = .configuring ∨ cell.stage = .running ∨
    cell.stage = .failed → cell.mServerSocket.isSome = true
  threaded : cell.stage = .configuring ∨ cell.stage = .running ∨ cell.stage = .failed →
    cell.mThread.isSome = true
  failed : cell.stage = .failed → cell.role = .server
  stopped : cell.stage = .stopped → cell.mServerSocket = none ∧ cell.mThread = none

def launchWaste (role : Role) (netNs : Option String) (answers : HostAnswers) : Waste :=
  if answers.pthreadCreate = false then ⟨netNs.isSome.toNat, 0, 0⟩
  else if role = .server ∧ (answers.socket && answers.setsockopt) = false then
    ⟨(keepsName netNs answers).toNat, (entersNamespace netNs answers).toNat, 1⟩
  else .nothing

/-- Both failing branches of the worker's beginning: all it had entered is given up. -/
theorem server_abandoned {host : HostCell} {started ended : Process}
    {entered : HostCell × Process}
    (enters : Entered netNs answers host started entered blocks descs threads)
    (alive : host.stage ≠ .destroyed) (thread : host.mThread.toList.length = 1)
    (created : answers.pthreadCreate = true)
    (refused : (answers.socket && answers.setsockopt) = false)
    (books : Books ended (entered.1.blocks ++ blocks) (entered.1.descs ++ descs)
      (entered.1.threads ++ threads)) (same : ended.losses = started.losses) :
    Yields started (none, abandon entered.1 ended) blocks descs threads
      (launchWaste .server netNs answers) := by
  have stillAlive : entered.1.stage ≠ .destroyed := by
    rw [enters.stage]
    exact alive
  obtain ⟨left, losses⟩ := abandon_spec stillAlive enters.socketless books
  refine ⟨left, ?_⟩
  simp only [losses, same, enters.name, enters.nms, enters.thread, thread, launchWaste, created,
    refused, Bool.true_eq_false, if_false, and_self, if_true]

theorem server_made {host : HostCell} {started : Process} {entered : HostCell × Process}
    (enters : Entered netNs answers host started entered blocks descs threads)
    (alive : host.stage ≠ .destroyed) (created : answers.pthreadCreate = true)
    (granted : (answers.socket && answers.setsockopt) = true) :
    Yields started (some { entered.1 with mServerSocket := some entered.2.descs.fresh },
      { entered.2 with descs := entered.2.descs.take }) blocks descs threads
      (launchWaste .server netNs answers) := by
  have stillAlive : entered.1.stage ≠ .destroyed := by
    rw [enters.stage]
    exact alive
  refine ⟨⟨?_, ?_, ?_⟩, ?_⟩
  · simpa [HostCell.blocks, stillAlive] using enters.books.memory
  · refine enters.books.descs.take.perm (List.perm_iff_count.mpr fun desc => ?_)
    simp only [Option.elim_some, List.count_cons, List.count_append,
      descs_count entered.1 stillAlive,
      descs_count { entered.1 with mServerSocket := some entered.2.descs.fresh } stillAlive,
      enters.socketless, Option.toList_none, Option.toList_some, List.count_nil]
    omega
  · simpa [HostCell.threads, stillAlive] using enters.books.threads
  · simp only [launchWaste, created, granted, Bool.true_eq_false, if_false, and_false,
      plus_nothing]
    exact enters.losses

/-- A host that is still to be configured has what a host without a socket may have. -/
theorem configuring_stands (configuring : cell.stage = .configuring)
    (threaded : cell.mThread.isSome = true)
    (listening : cell.role = .server → cell.mServerSocket.isSome = true) : Standing cell where
  listening := fun serves _ => listening serves
  threaded := fun _ => threaded
  failed := fun failed => by simp [configuring] at failed
  stopped := fun stopped => by simp [configuring] at stopped

/-- From the first statement of the worker on. -/
theorem begin_spec (host : HostCell) {started : Process} (sameRole : host.role = role)
    (configuring : host.stage = .configuring) (socketless : host.mServerSocket = none)
    (outside : host.mNetNsFd = none) (thread : host.mThread.toList.length = 1)
    (named : host.mNetNs.isSome = netNs.isSome) (created : answers.pthreadCreate = true)
    (books : Books started (host.blocks ++ blocks) (host.descs ++ descs)
      (host.threads ++ threads)) :
    ∃ begins result, roleBegin netNs answers host started = (begins, result) ∧
      Yields started (if begins then (some result.1, result.2)
        else (none, abandon result.1 result.2)) blocks descs threads
        (launchWaste role netNs answers) ∧ (begins = true → Standing result.1) := by
  have alive : host.stage ≠ .destroyed := by
    rw [configuring]
    decide
  have threaded : host.mThread.isSome = true := by
    cases known : host.mThread with
    | none => simp [known] at thread
    | some own => rfl
  cases server : role with
  | service =>
      refine ⟨true, (host, started), by simp [roleBegin, sameRole, server], ⟨books, ?_⟩, ?_⟩
      · simp [launchWaste, created]
      · exact fun _ => configuring_stands configuring threaded fun serves => by
          simp [sameRole, server] at serves
  | server =>
      obtain ⟨entered, enters, begins⟩ := enter_spec netNs answers host alive socketless outside
        named books
      have asServer : roleBegin netNs answers host started =
          threadBegin netNs answers host started := by
        simp [roleBegin, sameRole, server]
      rw [asServer, begins]
      have opening := enters.books.descs.take
      cases socket : answers.socket with
      | false =>
          refine ⟨false, entered, rfl, ?_, nofun⟩
          exact server_abandoned enters alive thread created (by simp [socket]) enters.books
            enters.losses
      | true =>
          cases setsockopt : answers.setsockopt with
          | false =>
              have closed : Books { entered.2 with
                  descs := entered.2.descs.take.release (some entered.2.descs.fresh) }
                  (entered.1.blocks ++ blocks) (entered.1.descs ++ descs)
                  (entered.1.threads ++ threads) :=
                ⟨enters.books.memory, opening.release (some entered.2.descs.fresh),
                  enters.books.threads⟩
              have left := server_abandoned enters alive thread created (by simp [setsockopt])
                closed enters.losses
              exact ⟨false, _, rfl, left, nofun⟩
          | true =>
              have kept := server_made enters alive created (by simp [socket, setsockopt])
              refine ⟨true, _, rfl, kept, fun _ => ?_⟩
              exact configuring_stands (enters.stage.trans configuring)
                (enters.thread ▸ threaded) fun _ => rfl

theorem launch_spec (cell : HostCell) (answers : HostAnswers) (sameRole : cell.role = role)
    (configuring : cell.stage = .configuring)
    (socketless : cell.mServerSocket = none) (outside : cell.mNetNsFd = none)
    (threadless : cell.mThread = none) (named : cell.mNetNs.isSome = netNs.isSome)
    (books : Books process (cell.blocks ++ blocks) (cell.descs ++ descs)
      (cell.threads ++ threads)) :
    Yields process (launch netNs answers cell process) blocks descs threads
        (launchWaste role netNs answers) ∧
      ∀ made ∈ (launch netNs answers cell process).1, Standing made := by
  have alive : cell.stage ≠ .destroyed := by
    rw [configuring]
    decide
  cases created : answers.pthreadCreate with
  | false =>
      have copies : cell.mNetNs.toList.length = netNs.isSome.toNat := by
        rw [← named]
        cases cell.mNetNs <;> rfl
      obtain ⟨left, losses⟩ := abandon_spec alive socketless books
      have shape : launch netNs answers cell process = (none, abandon cell process) := by
        simp [launch, created]
      rw [shape]
      refine ⟨⟨left, ?_⟩, by simp⟩
      rw [losses, copies, outside, threadless]
      simp [launchWaste, created]
  | true =>
      let host := { cell with mThread := some process.threads.fresh }
      let started := { process with threads := process.threads.take }
      have running : Books started (host.blocks ++ blocks) (host.descs ++ descs)
          (host.threads ++ threads) := by
        refine ⟨books.memory, books.descs, ?_⟩
        have unthreaded : cell.threads = [] := by simp [HostCell.threads, threadless]
        have own : host.threads = [process.threads.fresh] := by
          simp [host, HostCell.threads, alive]
        rw [own]
        exact (unthreaded ▸ books.threads).take
      obtain ⟨begins, result, same, yields, stands⟩ := begin_spec host sameRole
        configuring socketless outside rfl named created running
      have shape : launch netNs answers cell process =
          if begins then (some result.1, result.2) else (none, abandon result.1 result.2) := by
        simp only [launch, created, Bool.true_eq_false, if_false]
        rw [show roleBegin netNs answers { cell with mThread := some process.threads.fresh }
          { process with threads := process.threads.take } = (begins, result) from same]
      rw [shape]
      refine ⟨⟨yields.books, yields.losses⟩, fun made member => ?_⟩
      cases begins with
      | false => cases member
      | true =>
          cases member
          exact stands rfl

theorem launched_waste (role : Role) (netNs : Option String) (begins : begun answers = true)
    (lists : listed answers = true)
    (named : ¬ (netNs.isSome = true ∧ answers.strdup = false)) :
    creationWaste role netNs answers = launchWaste role netNs answers := by
  by_cases thread : answers.pthreadCreate = false
  · simp only [creationWaste, ending, begins, lists, named, launchWaste, thread,
      Bool.true_eq_false, if_false, if_true]
  · by_cases socket : role = .server ∧ (answers.socket && answers.setsockopt) = false
    · simp only [creationWaste, ending, begins, lists, named, launchWaste, thread, socket,
        Bool.true_eq_false, if_false, if_true, and_self]
    · simp only [creationWaste, ending, begins, lists, named, launchWaste, thread, socket,
        Bool.true_eq_false, if_false]

theorem unallocated_waste (role : Role) (netNs : Option String)
    (refused : (begun answers && listed answers) = false) :
    creationWaste role netNs answers = allocationWaste answers := by
  cases early : begun answers with
  | false => simp [creationWaste, ending, allocationWaste, early]
  | true =>
      have unlisted : listed answers = false := by simpa [early] using refused
      simp [creationWaste, ending, allocationWaste, early, unlisted]

/-- Without a copy of its name only the server closes its `epoll` descriptor. -/
def leaveEpoll (role : Role) (cell : HostCell) (descs : Ledger) : Ledger :=
  match role with
  | .server => descs.release (some cell.mEpollDesc)
  | .service => descs.drop (some cell.mEpollDesc)

theorem uncopied_spec (newborn : Newborn role cell) (named : netNs.isSome = true)
    (begins : begun answers = true) (lists : listed answers = true)
    (uncopied : answers.strdup = false) (books : Books process (cell.blocks ++ blocks)
      (cell.descs ++ descs) (cell.threads ++ threads)) :
    Yields process (none, { process with
      memory := freeHost cell process.memory
      descs := leaveEpoll role cell process.descs }) blocks descs threads
      (creationWaste role netNs answers) := by
  have alive := newborn.alive
  have freed := freeHost_spec alive books.memory
  rw [newborn.nameless] at freed
  have epoll : process.descs.Holds (cell.mEpollDesc :: descs) := by
    simpa [HostCell.descs, alive, newborn.socketless, newborn.outside] using books.descs
  have unthreaded : process.threads.Holds threads := by
    simpa [HostCell.threads, alive, newborn.threadless] using books.threads
  have waste : creationWaste role netNs answers =
      if role = .server then .nothing else ⟨0, 1, 0⟩ := by
    cases role <;> simp [creationWaste, ending, begins, lists, named, uncopied]
  rw [waste]
  cases role with
  | server => exact ⟨⟨freed, epoll.release (some cell.mEpollDesc), unthreaded⟩, rfl⟩
  | service =>
      refine ⟨⟨freed, epoll.drop (some cell.mEpollDesc), unthreaded⟩, ?_⟩
      simp [Process.losses, Waste.plus, leaveEpoll]

theorem copied_books (alive : cell.stage ≠ .destroyed) (nameless : cell.mNetNs = none)
    (books : Books process (cell.blocks ++ blocks) (cell.descs ++ descs)
      (cell.threads ++ threads)) :
    Books { process with memory := process.memory.take }
      (({ cell with mNetNs := some process.memory.fresh } : HostCell).blocks ++ blocks)
      (cell.descs ++ descs) (cell.threads ++ threads) := by
  refine ⟨books.memory.take.perm (List.perm_iff_count.mpr fun block => ?_), books.descs,
    books.threads⟩
  simp only [List.count_cons, List.count_append, blocks_count cell alive,
    blocks_count { cell with mNetNs := some process.memory.fresh } alive, nameless,
    Option.toList_none, Option.toList_some, List.count_nil]
  omega

theorem createNs_spec (role : Role) (netNs : Option String) (answers : HostAnswers)
    (books : Books process blocks descs threads) :
    Yields process (createNs role netNs answers process) blocks descs threads
        (creationWaste role netNs answers) ∧
      ∀ made ∈ (createNs role netNs answers process).1, Standing made := by
  obtain ⟨yields, asked, newborn⟩ := allocate_spec role answers books
  cases allocated : allocate role answers process with
  | mk object middle =>
      rw [allocated] at yields asked newborn
      cases object with
      | none =>
          have shape : createNs role netNs answers process = (none, middle) := by
            simp [createNs, allocated]
          rw [shape, unallocated_waste role netNs asked.symm]
          exact ⟨yields, by simp⟩
      | some cell =>
          obtain ⟨begins, lists⟩ : begun answers = true ∧ listed answers = true := by
            simpa using asked.symm
          have fresh := newborn cell rfl
          have same : middle.losses = process.losses := by
            rw [yields.losses]
            simp [allocationWaste, lists]
          by_cases unnamed : netNs.isNone = true
          · have waste := launched_waste role netNs begins lists
              (fun asks : netNs.isSome = true ∧ answers.strdup = false => by simp_all)
            have nameless : cell.mNetNs.isSome = netNs.isSome := by
              rw [fresh.nameless, Option.isNone_iff_eq_none.mp unnamed]
              rfl
            have shape : createNs role netNs answers process =
                launch netNs answers cell middle := by
              simp [createNs, allocated, unnamed]
            obtain ⟨made, standing⟩ := launch_spec cell answers fresh.role fresh.stage
              fresh.socketless fresh.outside fresh.threadless nameless yields.books
            rw [shape, waste]
            exact ⟨⟨made.books, by rw [made.losses, same]⟩, standing⟩
          · have named : netNs.isSome = true := by
              cases netNs <;> simp_all
            cases strdup : answers.strdup with
            | false =>
                obtain ⟨left, losses⟩ :=
                  uncopied_spec fresh named begins lists strdup yields.books
                have shape : createNs role netNs answers process = (none, { middle with
                    memory := freeHost cell middle.memory
                    descs := leaveEpoll role cell middle.descs }) := by
                  cases role <;> simp [createNs, allocated, unnamed, strdup, leaveEpoll]
                rw [shape]
                exact ⟨⟨left, by rw [losses, same]⟩, by simp⟩
            | true =>
                have waste := launched_waste role netNs begins lists
                  (fun asks : netNs.isSome = true ∧ answers.strdup = false => by simp_all)
                have copied := copied_books fresh.alive fresh.nameless yields.books
                have shape : createNs role netNs answers process =
                    launch netNs answers { cell with mNetNs := some middle.memory.fresh }
                      { middle with memory := middle.memory.take } := by
                  simp [createNs, allocated, unnamed, strdup]
                obtain ⟨made, standing⟩ := launch_spec
                  { cell with mNetNs := some middle.memory.fresh } answers fresh.role fresh.stage
                  fresh.socketless fresh.outside fresh.threadless named.symm copied
                rw [shape, waste]
                exact ⟨⟨made.books, made.losses.trans (by rw [← same]; rfl)⟩, standing⟩

end Creating

end Libasock.HostCreations
