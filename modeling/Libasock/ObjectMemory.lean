import Libasock.BlockLedger
import Libasock.GuardedRuns
import Libasock.ConnectionObjects
import Libasock.AcceptIterations

/-!
The memory of the connection objects: the blocks `asock_impl.c` and
`asock_tsqueue.c` allocate for them and free, and the worker's and the user's
calls in any order. `lost` lists the blocks whose last pointer the code has
overwritten or let go out of scope; `wasted` counts the calls that do so.
-/

namespace Libasock.ObjectMemory
open ByteBlocks GuardedRuns TsqueueModel ConnectionObjects AcceptIterations BlockLedger

structure QueueCell where
  self : Block
  mData : Option Block
  deriving DecidableEq

structure ObjectCell where
  self : Block
  mInQueue : QueueCell
  mOutQueue : QueueCell
  mRefCounter : Int
  mPeerAddr : Option Block
  mHostAddr : Option Block
  mNetNs : Option Block
  /-- The object has been freed; its fields are what they were. -/
  released : Bool
  deriving DecidableEq

inductive Side where
  | input | output
  deriving DecidableEq

def ObjectCell.queue (cell : ObjectCell) : Side → QueueCell
  | .input => cell.mInQueue
  | .output => cell.mOutQueue

def ObjectCell.setData (cell : ObjectCell) (side : Side) (data : Option Block) : ObjectCell :=
  match side with
  | .input => { cell with mInQueue := { cell.mInQueue with mData := data } }
  | .output => { cell with mOutQueue := { cell.mOutQueue with mData := data } }

structure Memory where
  heap : Heap
  objects : List ObjectCell
  lost : List Block
  wasted : Nat

def Memory.empty : Memory := ⟨.empty, [], [], 0⟩

inductive Label where
  | createNs (strdup service : Bool) (answers : ObjectAnswers)
  | accept (answers : ObjectAnswers) (addr listed : Bool)
  | bind (con : Nat) (addr bound : Bool)
  | connect (con : Nat) (service addr : Bool)
  | access (con : Nat) (side : Side)
  | grow (con : Nat) (side : Side) (granted : Bool)
  | destroy (con : Nat)

section Functions

/-- `asock_tsqueue_create` -/
def createQueue (answers : CreateAnswers) (heap : Heap) : Option QueueCell × Heap :=
  match heap.malloc answers.structAlloc with
  | (none, heap) => (none, heap)
  | (some queue, heap) =>
      if answers.mutexInit = false then (none, heap.free (some queue))
      else
        match heap.malloc answers.dataAlloc.isSome with
        | (none, heap) => (none, heap.free (some queue))
        | (some data, heap) => (some ⟨queue, some data⟩, heap)

/-- `asock_tsqueue_destroy` -/
def destroyQueue (heap : Heap) (queue : QueueCell) : Heap :=
  ((heap.touch (some queue.self)).free queue.mData).free (some queue.self)

/-- `asock_fcreate_asock` -/
def fcreate (answers : ObjectAnswers) (heap : Heap) : Option ObjectCell × Heap :=
  match heap.malloc answers.objectAlloc with
  | (none, heap) => (none, heap)
  | (some con, heap) =>
      match createQueue answers.inQueue heap with
      | (none, heap) => (none, heap.free (some con))
      | (some inQueue, heap) =>
          match createQueue answers.outQueue heap with
          | (none, heap) => (none, (destroyQueue heap inQueue).free (some con))
          | (some outQueue, heap) =>
              (some ⟨con, inQueue, outQueue, 1, none, none, none, false⟩, heap)

/-- `asock_destroy_asock` -/
def destroyAsock (cell : ObjectCell) (heap : Heap) : ObjectCell × Heap :=
  let heap := heap.touch (some cell.self)
  let cell := { cell with mRefCounter := cell.mRefCounter - 1 }
  if cell.mRefCounter = 0 then
    let heap := destroyQueue (destroyQueue heap cell.mInQueue) cell.mOutQueue
    let heap := ((heap.free cell.mPeerAddr).free cell.mHostAddr).free cell.mNetNs
    ({ cell with released := true }, heap.free (some cell.self))
  else (cell, heap)

/-- `asock_create_ns`; without a service or an object its copy of the namespace is lost. -/
def createNs (memory : Memory) (strdup service : Bool) (answers : ObjectAnswers) : Memory :=
  match memory.heap.malloc strdup with
  | (none, heap) => { memory with heap := heap }
  | (some tmp, heap) =>
      if service = false then { memory with heap := heap, lost := tmp :: memory.lost }
      else
        match fcreate answers heap with
        | (none, heap) => { memory with heap := heap, lost := tmp :: memory.lost }
        | (some cell, heap) =>
            { memory with
              heap := heap
              objects := memory.objects ++ [{ cell with mNetNs := some tmp }] }

/-- The accept iteration: object, peer address, the two lists, and their references. -/
def accept (memory : Memory) (answers : ObjectAnswers) (addr listed : Bool) : Memory :=
  match fcreate answers memory.heap with
  | (none, heap) => { memory with heap := heap }
  | (some cell, heap) =>
      match heap.malloc addr with
      | (none, heap) =>
          let (cell, heap) := destroyAsock cell heap
          { memory with heap := heap, objects := memory.objects ++ [cell] }
      | (some peer, heap) =>
          let cell := { cell with mPeerAddr := some peer }
          if listed then
            { memory with
              heap := heap
              objects := memory.objects ++ [{ cell with mRefCounter := cell.mRefCounter + 1 }] }
          else
            let (cell, heap) := destroyAsock cell heap
            { memory with heap := heap, objects := memory.objects ++ [cell] }

/-- `asock_bind` -/
def bind (cell : ObjectCell) (heap : Heap) (addr bound : Bool) : ObjectCell × Heap × List Block :=
  match heap.malloc addr with
  | (none, heap) => (cell, heap, [])
  | (some host, heap) =>
      let heap := heap.touch (some cell.self)
      if bound then ({ cell with mHostAddr := some host }, heap, cell.mHostAddr.toList)
      else (cell, heap.free (some host), [])

/-- `asock_connect` up to its push; the reference it counts is the worker's. -/
def connect (cell : ObjectCell) (heap : Heap) (service addr : Bool) :
    ObjectCell × Heap × List Block :=
  let heap := (heap.touch (some cell.self)).touch cell.mNetNs
  if service = false then (cell, heap, [])
  else
    match heap.malloc addr with
    | (none, heap) => (cell, heap, [])
    | (some peer, heap) =>
        ({ cell with mPeerAddr := some peer, mRefCounter := cell.mRefCounter + 1 }, heap,
          cell.mPeerAddr.toList)

/-- An enqueue or a dequeue that stays in the queue's block. -/
def access (cell : ObjectCell) (heap : Heap) (side : Side) : Heap :=
  ((heap.touch (some cell.self)).touch (some (cell.queue side).self)).touch (cell.queue side).mData

/-- An enqueue that needs a larger block: `reallocate` stores what `realloc` returns. -/
def grow (cell : ObjectCell) (heap : Heap) (side : Side) (granted : Bool) :
    ObjectCell × Heap × List Block :=
  let heap := (heap.touch (some cell.self)).touch (some (cell.queue side).self)
  match heap.realloc (cell.queue side).mData granted with
  | (some data, heap) => (cell.setData side (some data), heap, [])
  | (none, heap) => (cell.setData side none, heap, (cell.queue side).mData.toList)

def Memory.update (memory : Memory) (con : Nat) (result : ObjectCell × Heap × List Block) :
    Memory :=
  { memory with
    heap := result.2.1
    objects := memory.objects.set con result.1
    lost := result.2.2 ++ memory.lost }

def perform (memory : Memory) : Label → Option Memory
  | .createNs strdup service answers => some (createNs memory strdup service answers)
  | .accept answers addr listed => some (accept memory answers addr listed)
  | .bind con addr bound => memory.objects[con]?.map fun cell =>
      memory.update con (bind cell memory.heap addr bound)
  | .connect con service addr => memory.objects[con]?.map fun cell =>
      memory.update con (connect cell memory.heap service addr)
  | .access con side => memory.objects[con]?.map fun cell =>
      { memory with heap := access cell memory.heap side }
  | .grow con side granted => memory.objects[con]?.map fun cell =>
      memory.update con (grow cell memory.heap side granted)
  | .destroy con => memory.objects[con]?.map fun cell =>
      let (cell, heap) := destroyAsock cell memory.heap
      { memory with heap := heap, objects := memory.objects.set con cell }

end Functions

section Waste

def queueGranted (answers : CreateAnswers) : Bool :=
  answers.structAlloc && answers.mutexInit && answers.dataAlloc.isSome

def objectGranted (answers : ObjectAnswers) : Bool :=
  answers.objectAlloc && queueGranted answers.inQueue && queueGranted answers.outQueue

/-- A copy of the namespace that no object gets, an address written over, a block whose
`realloc` is refused. -/
def wasteful (memory : Memory) : Label → Bool
  | .createNs strdup service answers => strdup && !(service && objectGranted answers)
  | .bind con addr bound => addr && bound &&
      memory.objects[con]?.any fun cell => cell.mHostAddr.isSome
  | .connect con service addr => service && addr &&
      memory.objects[con]?.any fun cell => cell.mPeerAddr.isSome
  | .grow con side granted => !granted &&
      memory.objects[con]?.any fun cell => (cell.queue side).mData.isSome
  | .accept .. | .access .. | .destroy _ => false

def step (memory : Memory) (label : Label) : Option Memory :=
  (perform memory label).map fun after =>
    { after with wasted := after.wasted + if wasteful memory label then 1 else 0 }

/-- The caller has a reference; a connection of a server is not passed to `asock_connect`, and a
queue whose `realloc` was refused is not used before it gets a block again. -/
def Held (memory : Memory) : Label → Prop
  | .createNs .. | .accept .. => True
  | .bind con .. | .grow con .. | .destroy con =>
      ∀ cell ∈ memory.objects[con]?, 0 < cell.mRefCounter
  | .connect con .. =>
      ∀ cell ∈ memory.objects[con]?, 0 < cell.mRefCounter ∧ cell.mNetNs.isSome = true
  | .access con side =>
      ∀ cell ∈ memory.objects[con]?, 0 < cell.mRefCounter ∧ (cell.queue side).mData.isSome = true

instance (memory : Memory) (label : Label) : Decidable (Held memory label) :=
  match label with
  | .createNs .. | .accept .. => .isTrue trivial
  | .bind con .. | .grow con .. | .destroy con =>
      inferInstanceAs (Decidable (∀ cell ∈ memory.objects[con]?, 0 < cell.mRefCounter))
  | .connect con .. => inferInstanceAs (Decidable (∀ cell ∈ memory.objects[con]?,
      0 < cell.mRefCounter ∧ cell.mNetNs.isSome = true))
  | .access con side => inferInstanceAs (Decidable (∀ cell ∈ memory.objects[con]?,
      0 < cell.mRefCounter ∧ (cell.queue side).mData.isSome = true))

end Waste

section Owning

def QueueCell.blocks (queue : QueueCell) : List Block := queue.self :: queue.mData.toList

/-- What an object that has not been freed keeps alive. -/
def ObjectCell.blocks (cell : ObjectCell) : List Block :=
  if cell.released then []
  else
    cell.self :: (cell.mInQueue.blocks ++ (cell.mOutQueue.blocks ++ (cell.mPeerAddr.toList ++
      (cell.mHostAddr.toList ++ cell.mNetNs.toList))))

variable {heap : Heap} {owned rest lost : List Block} {cell : ObjectCell}

theorem createQueue_spec (answers : CreateAnswers) (accounts : Accounts heap owned lost) :
    (createQueue answers heap).1.isSome = queueGranted answers ∧
      Accounts (createQueue answers heap).2
        ((createQueue answers heap).1.elim [] QueueCell.blocks ++ owned) lost := by
  have first := malloc_accounts accounts
  cases struct : answers.structAlloc with
  | false => simpa [createQueue, Heap.malloc, queueGranted, struct] using accounts
  | true =>
      cases init : answers.mutexInit with
      | false =>
          have freed := free_accounts first
          simpa [createQueue, Heap.malloc, queueGranted, struct, init] using freed
      | true =>
          cases data : answers.dataAlloc.isSome with
          | false =>
              have freed := free_accounts first
              simpa [createQueue, Heap.malloc, queueGranted, struct, init, data] using freed
          | true =>
              have second := malloc_accounts first
              have swapped := accounts_perm second (List.Perm.swap _ _ owned)
              simpa [createQueue, Heap.malloc, queueGranted, struct, init, data,
                QueueCell.blocks] using swapped

theorem destroyQueue_spec {queue : QueueCell}
    (accounts : Accounts heap (queue.blocks ++ owned) lost) :
    Accounts (destroyQueue heap queue) owned lost := by
  have touched := touch_accounts accounts (List.mem_append_left owned List.mem_cons_self)
  have turn : (queue.blocks ++ owned).Perm (queue.mData.toList ++ queue.self :: owned) :=
    List.perm_middle.symm
  exact free_accounts (free_optional (accounts_perm touched turn))

structure FreshCell (cell : ObjectCell) : Prop where
  kept : cell.released = false
  single : cell.mRefCounter = 1
  peerless : cell.mPeerAddr = none
  nameless : cell.mNetNs = none

theorem fcreate_spec (answers : ObjectAnswers) (accounts : Accounts heap owned lost) :
    (fcreate answers heap).1.isSome = objectGranted answers ∧
      (∀ cell ∈ (fcreate answers heap).1, FreshCell cell) ∧
      Accounts (fcreate answers heap).2
        ((fcreate answers heap).1.elim [] ObjectCell.blocks ++ owned) lost := by
  cases granted : answers.objectAlloc with
  | false => simpa [fcreate, Heap.malloc, objectGranted, granted] using accounts
  | true =>
      have first := malloc_accounts accounts
      obtain ⟨asked, second⟩ := createQueue_spec answers.inQueue first
      cases input : createQueue answers.inQueue (heap.malloc true).2 with
      | mk inQueue middle =>
          rw [input] at asked second
          cases inQueue with
          | none =>
              have freed := free_accounts second
              have refused : queueGranted answers.inQueue = false := asked.symm
              have shape : fcreate answers heap = (none, middle.free (some heap.made)) := by
                simp [fcreate, granted, Heap.malloc] at input ⊢
                simp [input]
              simpa [shape, objectGranted, granted, refused] using freed
          | some inQueue =>
              have allowed : queueGranted answers.inQueue = true := asked.symm
              obtain ⟨asksToo, third⟩ := createQueue_spec answers.outQueue second
              cases output : createQueue answers.outQueue middle with
              | mk outQueue last =>
                  rw [output] at asksToo third
                  cases outQueue with
                  | none =>
                      have freed := free_accounts (destroyQueue_spec third)
                      have refused : queueGranted answers.outQueue = false := asksToo.symm
                      have shape : fcreate answers heap =
                          (none, (destroyQueue last inQueue).free (some heap.made)) := by
                        simp [fcreate, granted, Heap.malloc] at input ⊢
                        simp [input, output]
                      simpa [shape, objectGranted, granted, allowed, refused] using freed
                  | some outQueue =>
                      have allowedToo : queueGranted answers.outQueue = true := asksToo.symm
                      have shape : fcreate answers heap =
                          (some ⟨heap.made, inQueue, outQueue, 1, none, none, none, false⟩,
                            last) := by
                        simp [fcreate, granted, Heap.malloc] at input ⊢
                        simp [input, output]
                      rw [shape]
                      refine ⟨?_, ?_, ?_⟩
                      · simp [objectGranted, granted, allowed, allowedToo]
                      · intro cell made
                        cases made
                        exact ⟨rfl, rfl, rfl, rfl⟩
                      · refine accounts_perm third (List.perm_iff_count.mpr fun block => ?_)
                        simp only [ObjectCell.blocks, Option.elim_some, Option.toList_none,
                          List.append_nil, List.cons_append, List.count_append, List.count_cons,
                          Bool.false_eq_true, if_false]
                        omega

/-- Two layouts of one object's blocks are compared block by block. -/
theorem blocks_count (cell : ObjectCell) (kept : cell.released = false) (block : Block) :
    cell.blocks.count block =
      [cell.self].count block + ((cell.mInQueue.blocks.count block +
        cell.mOutQueue.blocks.count block) + (cell.mPeerAddr.toList.count block +
          (cell.mHostAddr.toList.count block + cell.mNetNs.toList.count block))) := by
  simp only [ObjectCell.blocks, kept, Bool.false_eq_true, if_false, List.count_cons,
    List.count_append, List.count_nil]
  omega

/-- An object is freed exactly when its last reference has gone. -/
def Flagged (cell : ObjectCell) : Prop :=
  if cell.released then cell.mRefCounter = 0 else 0 < cell.mRefCounter

theorem destroyAsock_spec (cell : ObjectCell) (kept : cell.released = false)
    (positive : 0 < cell.mRefCounter) (accounts : Accounts heap (cell.blocks ++ rest) lost) :
    Accounts (destroyAsock cell heap).2 ((destroyAsock cell heap).1.blocks ++ rest) lost ∧
      Flagged (destroyAsock cell heap).1 := by
  have isOwn : cell.self ∈ cell.blocks ++ rest := by simp [ObjectCell.blocks, kept]
  have touched := touch_accounts accounts isOwn
  by_cases last : cell.mRefCounter - 1 = 0
  · -- the object's own block goes last
    have turn : (cell.blocks ++ rest).Perm
        (cell.mInQueue.blocks ++ (cell.mOutQueue.blocks ++ (cell.mPeerAddr.toList ++
          (cell.mHostAddr.toList ++ (cell.mNetNs.toList ++ (cell.self :: rest)))))) := by
      refine List.perm_iff_count.mpr fun block => ?_
      simp only [List.count_append, blocks_count cell kept, List.count_cons, List.count_nil]
      omega
    have freed := free_accounts (free_optional (free_optional (free_optional
      (destroyQueue_spec (destroyQueue_spec (accounts_perm touched turn))))))
    simp only [destroyAsock, last, if_true, ObjectCell.blocks, List.nil_append]
    exact ⟨freed, by simp [Flagged]⟩
  · simp only [destroyAsock, last, if_false]
    refine ⟨?_, ?_⟩
    · simpa only [ObjectCell.blocks, kept] using touched
    · simp only [Flagged, kept, Bool.false_eq_true, if_false]
      omega

/-- What a call through a reference leaves: the object still held, and the dropped blocks
added to the lost ones. -/
structure Settles (result : ObjectCell × Heap × List Block) (rest lost : List Block)
    (waste : Bool) : Prop where
  accounts : Accounts result.2.1 (result.1.blocks ++ rest) (result.2.2 ++ lost)
  kept : result.1.released = false
  positive : 0 < result.1.mRefCounter
  counted : result.2.2.length = if waste then 1 else 0

theorem bind_spec (kept : cell.released = false) (positive : 0 < cell.mRefCounter)
    (accounts : Accounts heap (cell.blocks ++ rest) lost) (addr bound : Bool) :
    Settles (bind cell heap addr bound) rest lost (addr && bound && cell.mHostAddr.isSome) := by
  cases addr with
  | false => exact ⟨accounts, kept, positive, rfl⟩
  | true =>
      have isOwn : cell.self ∈ heap.made :: (cell.blocks ++ rest) := by
        simp [ObjectCell.blocks, kept]
      have touched := touch_accounts (malloc_accounts accounts) isOwn
      cases bound with
      | false => exact ⟨free_accounts touched, kept, positive, rfl⟩
      | true =>
          have turn : (heap.made :: (cell.blocks ++ rest)).Perm (cell.mHostAddr.toList ++
              ({ cell with mHostAddr := some heap.made } : ObjectCell).blocks ++ rest) := by
            refine List.perm_iff_count.mpr fun block => ?_
            simp only [List.count_cons, List.count_append, blocks_count cell kept,
              blocks_count { cell with mHostAddr := some heap.made } kept,
              Option.toList_some, List.count_nil]
            omega
          rw [List.append_assoc] at turn
          refine ⟨drop_accounts _ (accounts_perm touched turn), kept, positive, ?_⟩
          cases host : cell.mHostAddr <;> simp [bind, Heap.malloc, host]

theorem connect_spec (kept : cell.released = false) (positive : 0 < cell.mRefCounter)
    (named : cell.mNetNs.isSome = true) (accounts : Accounts heap (cell.blocks ++ rest) lost)
    (service addr : Bool) :
    Settles (connect cell heap service addr) rest lost
      (service && addr && cell.mPeerAddr.isSome) := by
  obtain ⟨name, found⟩ := Option.isSome_iff_exists.mp named
  have isOwn : cell.self ∈ cell.blocks ++ rest := by simp [ObjectCell.blocks, kept]
  have ownName : name ∈ cell.blocks ++ rest := by simp [ObjectCell.blocks, kept, found]
  have touched := touch_accounts (touch_accounts accounts isOwn) ownName
  rw [← found] at touched
  cases service with
  | false => exact ⟨touched, kept, positive, rfl⟩
  | true =>
      cases addr with
      | false => exact ⟨touched, kept, positive, rfl⟩
      | true =>
          have turn : (heap.made :: (cell.blocks ++ rest)).Perm (cell.mPeerAddr.toList ++
              ({ cell with
                  mPeerAddr := some heap.made
                  mRefCounter := cell.mRefCounter + 1 } : ObjectCell).blocks ++ rest) := by
            refine List.perm_iff_count.mpr fun block => ?_
            simp only [List.count_cons, List.count_append, blocks_count cell kept,
              blocks_count { cell with
                mPeerAddr := some heap.made
                mRefCounter := cell.mRefCounter + 1 } kept,
              Option.toList_some, List.count_nil]
            omega
          rw [List.append_assoc] at turn
          refine ⟨drop_accounts _ (accounts_perm (malloc_accounts touched) turn), kept, ?_, ?_⟩
          · exact Int.lt_add_one_of_le (Int.le_of_lt positive)
          · cases peer : cell.mPeerAddr <;> simp [connect, Heap.malloc, peer]

theorem queue_mem (kept : cell.released = false) (side : Side) :
    (cell.queue side).self ∈ cell.blocks ∧
      ∀ data ∈ (cell.queue side).mData, data ∈ cell.blocks := by
  cases side <;> simp +contextual [ObjectCell.queue, ObjectCell.blocks, QueueCell.blocks, kept]

theorem access_spec (kept : cell.released = false) (side : Side)
    (backed : (cell.queue side).mData.isSome = true)
    (accounts : Accounts heap (cell.blocks ++ rest) lost) :
    Accounts (access cell heap side) (cell.blocks ++ rest) lost := by
  obtain ⟨data, found⟩ := Option.isSome_iff_exists.mp backed
  obtain ⟨ownQueue, ownData⟩ := queue_mem kept side
  have isOwn : cell.self ∈ cell.blocks ++ rest := by simp [ObjectCell.blocks, kept]
  have touched := touch_accounts (touch_accounts accounts isOwn)
    (List.mem_append_left rest ownQueue)
  have touchedToo := touch_accounts touched (List.mem_append_left rest (ownData data found))
  rwa [← found] at touchedToo

/-- The data block of a queue, set apart from the object's other blocks. -/
theorem setData_apart (rest : List Block) (kept : cell.released = false) (side : Side)
    (data : Option Block) :
    ∃ others, (cell.blocks ++ rest).Perm ((cell.queue side).mData.toList ++ others) ∧
      ((cell.setData side data).blocks ++ rest).Perm (data.toList ++ others) := by
  cases side with
  | input =>
      refine ⟨cell.self :: cell.mInQueue.self :: (cell.mOutQueue.blocks ++
        (cell.mPeerAddr.toList ++ (cell.mHostAddr.toList ++ (cell.mNetNs.toList ++ rest)))),
        ?_, ?_⟩
      all_goals
        refine List.perm_iff_count.mpr fun block => ?_
        simp only [ObjectCell.setData, ObjectCell.queue, ObjectCell.blocks, QueueCell.blocks,
          kept, Bool.false_eq_true, if_false, List.count_cons, List.count_append]
        omega
  | output =>
      refine ⟨cell.self :: cell.mOutQueue.self :: (cell.mInQueue.blocks ++
        (cell.mPeerAddr.toList ++ (cell.mHostAddr.toList ++ (cell.mNetNs.toList ++ rest)))),
        ?_, ?_⟩
      all_goals
        refine List.perm_iff_count.mpr fun block => ?_
        simp only [ObjectCell.setData, ObjectCell.queue, ObjectCell.blocks, QueueCell.blocks,
          kept, Bool.false_eq_true, if_false, List.count_cons, List.count_append]
        omega

@[simp] theorem setData_fields (cell : ObjectCell) (side : Side) (data : Option Block) :
    (cell.setData side data).released = cell.released ∧
      (cell.setData side data).mRefCounter = cell.mRefCounter := by
  cases side <;> exact ⟨rfl, rfl⟩

theorem grow_spec (kept : cell.released = false) (positive : 0 < cell.mRefCounter)
    (side : Side) (granted : Bool) (accounts : Accounts heap (cell.blocks ++ rest) lost) :
    Settles (grow cell heap side granted) rest lost
      (!granted && (cell.queue side).mData.isSome) := by
  have isOwn : cell.self ∈ cell.blocks ++ rest := by simp [ObjectCell.blocks, kept]
  have touched := touch_accounts (touch_accounts accounts isOwn)
    (List.mem_append_left rest (queue_mem kept side).1)
  cases granted with
  | false =>
      obtain ⟨others, before, after⟩ := setData_apart rest kept side none
      have dropped := accounts_perm (drop_accounts _ (accounts_perm touched before)) after.symm
      refine ⟨dropped, by simpa [grow, Heap.realloc] using kept,
        by simpa [grow, Heap.realloc] using positive, ?_⟩
      cases data : (cell.queue side).mData <;> simp [grow, Heap.realloc, data]
  | true =>
      obtain ⟨others, before, after⟩ := setData_apart rest kept side
        (some (((heap.touch (some cell.self)).touch (some (cell.queue side).self)).free
          (cell.queue side).mData).made)
      have moved := malloc_accounts (free_optional (accounts_perm touched before))
      exact ⟨accounts_perm moved after.symm, by simpa [grow, Heap.realloc, Heap.malloc] using kept,
        by simpa [grow, Heap.realloc, Heap.malloc] using positive, rfl⟩

theorem granted_iff (answers : ObjectAnswers) :
    objectGranted answers = true ↔ ¬ ObjectRefused answers := by
  simp only [objectGranted, queueGranted, ObjectRefused, QueueRefused, Bool.and_eq_true,
    not_or, Bool.not_eq_false, Option.isSome_iff_ne_none, and_assoc, ne_eq]

/-- An object's memory is obtained exactly where `asock_fcreate_asock` returns an object. -/
theorem fcreate_agrees (answers : ObjectAnswers) (fd : NumberReuse.Descriptor) (number : Nat)
    (accounts : Accounts heap owned lost) :
    (fcreate answers heap).1.isSome = true ↔
      ∃ con, fcreateAsock answers fd number = .ok (some con) := by
  rw [(fcreate_spec answers accounts).1, granted_iff]
  rcases object_created answers fd number with ⟨refused, fails⟩ | ⟨granted, con, makes, -⟩
  · simp [refused, fails]
  · simp [granted, makes]

end Owning

section Keeping

structure Kept (memory : Memory) : Prop where
  accounts : Accounts memory.heap (memory.objects.flatMap ObjectCell.blocks) memory.lost
  flagged : ∀ cell ∈ memory.objects, Flagged cell
  counted : memory.lost.length = memory.wasted

/-- What a call that makes objects leaves. -/
structure Adds (memory after : Memory) (made : List ObjectCell) (dropped : List Block) : Prop where
  objects : after.objects = memory.objects ++ made
  lost : after.lost = dropped ++ memory.lost
  wasted : after.wasted = memory.wasted
  accounts : Accounts after.heap
    (made.flatMap ObjectCell.blocks ++ memory.objects.flatMap ObjectCell.blocks) after.lost
  flagged : ∀ cell ∈ made, Flagged cell

variable {memory after : Memory} {cell : ObjectCell} {label : Label}

theorem createNs_adds
    (accounts : Accounts memory.heap (memory.objects.flatMap ObjectCell.blocks) memory.lost)
    (strdup service : Bool) (answers : ObjectAnswers) :
    ∃ made dropped, Adds memory (createNs memory strdup service answers) made dropped ∧
      dropped.length = if strdup && !(service && objectGranted answers) then 1 else 0 := by
  cases strdup with
  | false => exact ⟨[], [], ⟨by simp [createNs, Heap.malloc], rfl, rfl, accounts, by simp⟩, rfl⟩
  | true =>
      have first := malloc_accounts accounts
      cases service with
      | false =>
          have dropped := drop_accounts (some memory.heap.made) first
          exact ⟨[], [memory.heap.made], ⟨by simp [createNs, Heap.malloc], rfl, rfl, dropped,
            by simp⟩, rfl⟩
      | true =>
          obtain ⟨asked, fresh, second⟩ := fcreate_spec answers first
          cases made : fcreate answers (memory.heap.malloc true).2 with
          | mk object heap =>
              rw [made] at asked fresh second
              cases object with
              | none =>
                  have refused : objectGranted answers = false := asked.symm
                  have dropped := drop_accounts (some memory.heap.made) second
                  have shape : createNs memory true true answers =
                      { memory with heap := heap, lost := memory.heap.made :: memory.lost } := by
                    simp [createNs, Heap.malloc] at made ⊢
                    simp [made]
                  rw [shape]
                  exact ⟨[], [memory.heap.made], ⟨by simp, rfl, rfl, dropped, by simp⟩,
                    by simp [refused]⟩
              | some cell =>
                  have allowed : objectGranted answers = true := asked.symm
                  have newborn := fresh cell rfl
                  have shape : createNs memory true true answers =
                      { memory with
                        heap := heap
                        objects := memory.objects ++
                          [{ cell with mNetNs := some memory.heap.made }] } := by
                    simp [createNs, Heap.malloc] at made ⊢
                    simp [made]
                  rw [shape]
                  refine ⟨[{ cell with mNetNs := some memory.heap.made }], [],
                    ⟨rfl, rfl, rfl, ?_, ?_⟩, by simp [allowed]⟩
                  · refine accounts_perm second (List.perm_iff_count.mpr fun block => ?_)
                    simp only [Option.elim_some, List.flatMap_cons, List.flatMap_nil,
                      List.append_nil, List.count_append, blocks_count cell newborn.kept,
                      blocks_count { cell with mNetNs := some memory.heap.made }
                        newborn.kept, newborn.nameless, Option.toList_none, Option.toList_some,
                      List.count_cons, List.count_nil]
                    omega
                  · simp [Flagged, newborn.kept, newborn.single]

theorem accept_adds
    (accounts : Accounts memory.heap (memory.objects.flatMap ObjectCell.blocks) memory.lost)
    (answers : ObjectAnswers) (addr listed : Bool) :
    ∃ made, Adds memory (accept memory answers addr listed) made [] := by
  obtain ⟨-, fresh, first⟩ := fcreate_spec answers accounts
  cases made : fcreate answers memory.heap with
  | mk object heap =>
      rw [made] at fresh first
      cases object with
      | none =>
          have shape : accept memory answers addr listed = { memory with heap := heap } := by
            simp [accept, made]
          rw [shape]
          exact ⟨[], by simp, rfl, rfl, first, by simp⟩
      | some cell =>
          have newborn := fresh cell rfl
          have single : 0 < cell.mRefCounter := by rw [newborn.single]; decide
          cases addr with
          | false =>
              obtain ⟨second, flagged⟩ := destroyAsock_spec cell newborn.kept single first
              have shape : accept memory answers false listed =
                  { memory with
                    heap := (destroyAsock cell heap).2
                    objects := memory.objects ++ [(destroyAsock cell heap).1] } := by
                simp [accept, made, Heap.malloc]
              rw [shape]
              exact ⟨[(destroyAsock cell heap).1], rfl, rfl, rfl, by simpa using second,
                by simpa using flagged⟩
          | true =>
              have second := malloc_accounts first
              have turn : (heap.made :: (cell.blocks ++
                    memory.objects.flatMap ObjectCell.blocks)).Perm
                  (({ cell with mPeerAddr := some heap.made } : ObjectCell).blocks ++
                    memory.objects.flatMap ObjectCell.blocks) := by
                refine List.perm_iff_count.mpr fun block => ?_
                simp only [List.count_append, blocks_count cell newborn.kept,
                  blocks_count { cell with mPeerAddr := some heap.made } newborn.kept,
                  newborn.peerless, Option.toList_none, Option.toList_some, List.count_cons,
                  List.count_nil]
                omega
              have third := accounts_perm second turn
              cases listed with
              | false =>
                  obtain ⟨fourth, flagged⟩ := destroyAsock_spec
                    { cell with mPeerAddr := some heap.made } newborn.kept single third
                  have shape : accept memory answers true false =
                      { memory with
                        heap := (destroyAsock { cell with mPeerAddr := some heap.made }
                          (heap.malloc true).2).2
                        objects := memory.objects ++
                          [(destroyAsock { cell with mPeerAddr := some heap.made }
                            (heap.malloc true).2).1] } := by
                    simp [accept, made, Heap.malloc]
                  rw [shape]
                  exact ⟨_, rfl, rfl, rfl, by simpa using fourth, by simpa using flagged⟩
              | true =>
                  have shape : accept memory answers true true =
                      { memory with
                        heap := (heap.malloc true).2
                        objects := memory.objects ++
                          [{ cell with
                              mPeerAddr := some heap.made
                              mRefCounter := cell.mRefCounter + 1 }] } := by
                    simp [accept, made, Heap.malloc]
                  rw [shape]
                  refine ⟨_, rfl, rfl, rfl, by simpa [ObjectCell.blocks] using third, ?_⟩
                  simp [Flagged, newborn.kept, newborn.single]

theorem adds_kept (kept : Kept memory) {made : List ObjectCell} {dropped : List Block}
    {count : Nat} (adds : Adds memory after made dropped) (size : dropped.length = count) :
    Kept { after with wasted := after.wasted + count } := by
  refine ⟨?_, ?_, ?_⟩
  · have turn : (made.flatMap ObjectCell.blocks ++
        memory.objects.flatMap ObjectCell.blocks).Perm
          (after.objects.flatMap ObjectCell.blocks) := by
      rw [adds.objects, List.flatMap_append]
      exact List.perm_append_comm
    exact accounts_perm adds.accounts turn
  · intro cell member
    rw [adds.objects] at member
    rcases List.mem_append.mp member with older | newer
    · exact kept.flagged cell older
    · exact adds.flagged cell newer
  · show after.lost.length = after.wasted + count
    rw [adds.lost, adds.wasted, List.length_append, size, kept.counted, Nat.add_comm]

/-- A call on one object leaves the others as they are. -/
theorem update_kept (kept : Kept memory) {con : Nat} (found : memory.objects[con]? = some cell)
    (result : ObjectCell × Heap × List Block) {count : Nat}
    (settled : ∀ rest, Accounts memory.heap (cell.blocks ++ rest) memory.lost →
      Accounts result.2.1 (result.1.blocks ++ rest) (result.2.2 ++ memory.lost))
    (flagged : Flagged result.1) (size : result.2.2.length = count) :
    Kept { memory.update con result with wasted := memory.wasted + count } := by
  obtain ⟨rest, whole, changed⟩ := holders_apart ObjectCell.blocks found
  refine ⟨?_, ?_, ?_⟩
  · have apart := settled rest (accounts_perm kept.accounts whole)
    exact accounts_perm apart (changed result.1).symm
  · intro other member
    rcases List.mem_or_eq_of_mem_set member with older | rfl
    · exact kept.flagged other older
    · exact flagged
  · show (result.2.2 ++ memory.lost).length = memory.wasted + count
    rw [List.length_append, size, kept.counted, Nat.add_comm]

theorem held_unreleased (flagged : Flagged cell) (held : 0 < cell.mRefCounter) :
    cell.released = false := by
  cases released : cell.released with
  | false => rfl
  | true =>
      have zero : cell.mRefCounter = 0 := by simpa [Flagged, released] using flagged
      omega

theorem settles_kept (kept : Kept memory) {con : Nat} (found : memory.objects[con]? = some cell)
    {result : ObjectCell × Heap × List Block} {waste : Bool}
    (settles : ∀ rest, Accounts memory.heap (cell.blocks ++ rest) memory.lost →
      Settles result rest memory.lost waste) :
    Kept { memory.update con result with wasted := memory.wasted + if waste then 1 else 0 } := by
  obtain ⟨rest, whole, -⟩ := holders_apart ObjectCell.blocks found
  have here := settles rest (accounts_perm kept.accounts whole)
  refine update_kept kept found _ (fun rest accounts => (settles rest accounts).accounts) ?_
    here.counted
  simpa [Flagged, here.kept] using here.positive

theorem step_kept (kept : Kept memory) (allowed : Held memory label)
    (stepped : step memory label = some after) : Kept after := by
  simp only [step, Option.map_eq_some_iff] at stepped
  obtain ⟨middle, performed, rfl⟩ := stepped
  cases label with
  | createNs strdup service answers =>
      cases performed
      obtain ⟨made, dropped, adds, size⟩ := createNs_adds kept.accounts strdup service answers
      exact adds_kept kept adds size
  | accept answers addr listed =>
      cases performed
      obtain ⟨made, adds⟩ := accept_adds kept.accounts answers addr listed
      exact adds_kept kept adds rfl
  | bind con addr bound =>
      obtain ⟨cell, found, rfl⟩ := Option.map_eq_some_iff.mp performed
      have held := allowed cell found
      have unreleased := held_unreleased (kept.flagged cell (List.mem_of_getElem? found)) held
      simp only [wasteful, found, Option.any_some]
      exact settles_kept kept found fun rest accounts =>
        bind_spec unreleased held accounts addr bound
  | connect con service addr =>
      obtain ⟨cell, found, rfl⟩ := Option.map_eq_some_iff.mp performed
      obtain ⟨held, named⟩ := allowed cell found
      have unreleased := held_unreleased (kept.flagged cell (List.mem_of_getElem? found)) held
      simp only [wasteful, found, Option.any_some]
      exact settles_kept kept found fun rest accounts =>
        connect_spec unreleased held named accounts service addr
  | access con side =>
      obtain ⟨cell, found, rfl⟩ := Option.map_eq_some_iff.mp performed
      obtain ⟨held, backed⟩ := allowed cell found
      have unreleased := held_unreleased (kept.flagged cell (List.mem_of_getElem? found)) held
      obtain ⟨rest, whole, -⟩ := holders_apart ObjectCell.blocks found
      have touched := access_spec unreleased side backed (accounts_perm kept.accounts whole)
      exact ⟨accounts_perm touched whole.symm, kept.flagged, kept.counted⟩
  | grow con side granted =>
      obtain ⟨cell, found, rfl⟩ := Option.map_eq_some_iff.mp performed
      have held := allowed cell found
      have unreleased := held_unreleased (kept.flagged cell (List.mem_of_getElem? found)) held
      simp only [wasteful, found, Option.any_some]
      exact settles_kept kept found fun rest accounts =>
        grow_spec unreleased held side granted accounts
  | destroy con =>
      obtain ⟨cell, found, rfl⟩ := Option.map_eq_some_iff.mp performed
      have held := allowed cell found
      have unreleased := held_unreleased (kept.flagged cell (List.mem_of_getElem? found)) held
      obtain ⟨rest, whole, -⟩ := holders_apart ObjectCell.blocks found
      have flagged :=
        (destroyAsock_spec cell unreleased held (accounts_perm kept.accounts whole)).2
      exact update_kept kept found ((destroyAsock cell memory.heap).1,
        (destroyAsock cell memory.heap).2, [])
        (fun rest accounts => (destroyAsock_spec cell unreleased held accounts).1) flagged rfl

theorem run_kept (run : GuardedRun step Held .empty memory) : Kept memory :=
  run.invariant Kept (fun _ _ _ kept allowed stepped => step_kept kept allowed stepped)
    ⟨empty_accounts, by simp [Memory.empty], rfl⟩

end Keeping

section Results

theorem memory_accounted (memory : Memory) (run : GuardedRun step Held .empty memory) :
    memory.heap.sound = true ∧
    memory.heap.live.Nodup ∧
    memory.heap.live.Perm (memory.objects.flatMap ObjectCell.blocks ++ memory.lost) ∧
    memory.lost.length = memory.wasted ∧
    (∀ cell ∈ memory.objects, cell.released = true ↔ cell.mRefCounter = 0) ∧
    ((∀ cell ∈ memory.objects, cell.mRefCounter = 0) →
      memory.heap.live.length = memory.wasted) := by
  have kept := run_kept run
  have released : ∀ cell ∈ memory.objects, cell.released = true ↔ cell.mRefCounter = 0 := by
    intro cell member
    have flagged := kept.flagged cell member
    cases freed : cell.released with
    | false =>
        have positive : 0 < cell.mRefCounter := by simpa [Flagged, freed] using flagged
        simp only [Bool.false_eq_true, false_iff]
        omega
    | true => simpa [Flagged, freed] using flagged
  refine ⟨kept.accounts.sound, kept.accounts.once, kept.accounts.live, kept.counted, released, ?_⟩
  intro unheld
  have nothing : memory.objects.flatMap ObjectCell.blocks = [] := by
    refine List.flatMap_eq_nil_iff.mpr fun cell member => ?_
    simp [ObjectCell.blocks, (released cell member).mpr (unheld cell member)]
  rw [kept.accounts.live.length_eq, nothing, List.nil_append, kept.counted]

-- The second bind drops the first address; the two references free everything else.
theorem rebound_object_leaks : ∃ memory, GuardedRun step Held .empty memory ∧
    memory.heap.live.length = 1 := by
  obtain ⟨memory, run, tested⟩ := replayed step Held .empty
    [.createNs true true ⟨true, ⟨true, true, zeroed⟩, ⟨true, true, zeroed⟩⟩, .bind 0 true true,
      .bind 0 true true, .connect 0 true true, .grow 0 .output true, .destroy 0,
      .access 0 .output, .destroy 0]
    (fun memory => memory.wasted == 1 && memory.objects.all fun cell => cell.mRefCounter == 0)
    (by decide)
  simp only [Bool.and_eq_true, beq_iff_eq, List.all_eq_true] at tested
  exact ⟨memory, run, tested.1 ▸ (memory_accounted memory run).2.2.2.2.2 tested.2⟩

end Results

end Libasock.ObjectMemory
