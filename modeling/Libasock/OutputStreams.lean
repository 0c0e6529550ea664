import Libasock.SendPass

/-!
What the send passes of a worker make of the bytes its users write, for any number
of connections. A pass measures a queue and calls `send()` under the queue's lock
and drops the bytes after it has given the lock back; users write to this queue
and to others in between. Events may close connections between two passes.
-/

namespace Libasock.OutputStreams
open ByteBlocks GuardedRuns NumberReuse ReturnCodes TsqueueModel TsqueueContent ConnectionObjects
  WorkerWorld SocketContents RegisteredConnections
open SendPass hiding Label step

/-- A pass with what `asock_write` took and what `send()` took, by connection. -/
structure Recorder where
  pass : Pass
  accepted : ConRef → List Byte
  sent : ConRef → List Byte

inductive Label where
  | inside (label : SendPass.Label)
  | close (number : Nat)
  | nextPass

section Recording

/-- What `send()` takes in the worker's next operation. -/
def sending (pass : Pass) (answer : SendAnswer) : Option (ConRef × List Byte) :=
  match pass.pc with
  | .trying _ con data => (pass.world.objects con).bind fun object =>
      match object.con.trySendData pass.status pass.workerId (connectionIds pass.world) answer with
      | .sent count => some (con, data.take count)
      | .refused | .closing => none
  | _ => none

/-- What a call of `asock_write` takes. -/
def writing (pass : Pass) (con : ConRef) (src : List Byte) (answer : Allocation) : List Byte :=
  match pass.world.objects con with
  | none => []
  | some object =>
      match object.con.write src answer with
      | .error _ => []
      | .ok (count, _) => src.take count

def append (streams : ConRef → List Byte) (con : ConRef) (bytes : List Byte) :
    ConRef → List Byte :=
  Function.update streams con (streams con ++ bytes)

def record (recorder : Recorder) (label : SendPass.Label) (pass : Pass) : Recorder :=
  match label with
  | .turn answer =>
      match sending recorder.pass answer with
      | some (con, bytes) =>
          { recorder with pass := pass, sent := append recorder.sent con bytes }
      | none => { recorder with pass := pass }
  | .userWrite con src answer =>
      { recorder with
        pass := pass
        accepted := append recorder.accepted con (writing recorder.pass con src answer) }
  | .userDestroy _ | .userConnect _ | .userAccept => { recorder with pass := pass }

def step (recorder : Recorder) : Label → Option Recorder
  | .inside label => (SendPass.step recorder.pass label).map (record recorder label)
  | .close number =>
      if recorder.pass.pc = .visiting 0 then
        some { recorder with pass := { recorder.pass with
          world := (recorder.pass.world.closeConnection number).2 } }
      else none
  | .nextPass =>
      if recorder.pass.pc = .visiting 0 then
        some { recorder with
          pass := recorder.pass.goto (.visiting recorder.pass.world.mConnections.items.length) }
      else none

/-- A write finds memory and address space. -/
def Room (pass : Pass) : SendPass.Label → Prop
  | .userWrite con src answer => answer.isSome = true ∧
      ∀ object ∈ pass.world.objects con, object.con.mOutQueue.mSize + src.length ≤ 2 ^ 63
  | _ => True

instance (pass : Pass) (label : SendPass.Label) : Decidable (Room pass label) :=
  match label with
  | .userWrite con src answer => inferInstanceAs (Decidable (answer.isSome = true ∧
      ∀ object ∈ pass.world.objects con, object.con.mOutQueue.mSize + src.length ≤ 2 ^ 63))
  | .turn _ | .userDestroy _ | .userConnect _ | .userAccept => inferInstanceAs (Decidable True)

/-- Writes find memory and address space. -/
def Served (recorder : Recorder) : Label → Prop
  | .inside label => Room recorder.pass label
  | .close _ | .nextPass => True

instance (recorder : Recorder) (label : Label) : Decidable (Served recorder label) :=
  match label with
  | .inside label => inferInstanceAs (Decidable (Room recorder.pass label))
  | .close _ | .nextPass => inferInstanceAs (Decidable True)

end Recording

section Invariant

/-- What `send()` has taken of a queue that the worker has not dropped yet. -/
def owed : Pc → ConRef → Nat
  | .unlocking _ con (some count), other | .dequeuing _ con count, other =>
      if other = con then count else 0
  | _, _ => 0

def queueOf (world : World) (con : ConRef) : Option Tsqueue :=
  view (fun object => object.con.mOutQueue) world con

/-- Every byte taken from the user was sent, in order and once, or is in the queue. -/
structure Streams (recorder : Recorder) (con : ConRef) (queue : Tsqueue) : Prop where
  holds : HoldsBytes queue (bytesOf queue)
  owed : owed recorder.pass.pc con ≤ (bytesOf queue).length
  ledger : recorder.accepted con =
    recorder.sent con ++ (bytesOf queue).drop (OutputStreams.owed recorder.pass.pc con)

structure Kept (recorder : Recorder) : Prop where
  streams : ∀ con queue, queueOf recorder.pass.world con = some queue →
    Streams recorder con queue
  trying : ∀ left con data queue, recorder.pass.pc = .trying left con data →
    queueOf recorder.pass.world con = some queue → data <+: bytesOf queue

variable {recorder after : Recorder} {con : ConRef} {queue : Tsqueue}

/-- Steps that touch no output queue. -/
theorem quiet_kept (kept : Kept recorder)
    (queues : queueOf after.pass.world = queueOf recorder.pass.world)
    (accepted : after.accepted = recorder.accepted) (sent : after.sent = recorder.sent)
    (owes : owed after.pass.pc = owed recorder.pass.pc)
    (trying : ∀ left con data queue, after.pass.pc = .trying left con data →
      queueOf recorder.pass.world con = some queue → data <+: bytesOf queue) : Kept after := by
  refine ⟨?_, ?_⟩
  · intro con queue found
    rw [queues] at found
    obtain ⟨holds, bounded, ledger⟩ := kept.streams con queue found
    exact ⟨holds, by rw [owes]; exact bounded, by rw [accepted, sent, owes]; exact ledger⟩
  · intro left con data queue pc found
    rw [queues] at found
    exact trying left con data queue pc found

theorem put_queue {world : World} {next : Object} (con : ConRef) (other : ConRef) :
    queueOf (world.put con next) other =
      if other = con then some next.con.mOutQueue else queueOf world other := by
  by_cases same : other = con
  · subst same
    simp [queueOf, view, World.put]
  · simp [queueOf, view, World.put, same]

theorem receipt_queues {world later : World} (same : view receipt later = view receipt world) :
    queueOf later = queueOf world := by
  funext con
  have here := congrArg (Option.map fun receipt => receipt.2.2.1) (congrFun same con)
  simpa [queueOf, view, receipt, Function.comp_def] using here

theorem close_queues (world : World) (number : Nat) :
    queueOf (world.closeConnection number).2 = queueOf world :=
  receipt_queues (close_receipt world number)

theorem shut_queues (world : World) (number : Nat) :
    queueOf (world.shut number).2 = queueOf world := by
  have forgets : queueOf (world.forgetNew number) = queueOf world :=
    receipt_queues (view_objects (forgetNew_objects world number))
  rcases shut_cases world number with ⟨_, same⟩ | ⟨con, index, _, _, _, same⟩
  · rw [same]
    exact forgets
  · rw [same]
    exact (receipt_queues (shutAt_receipt _ con)).trans forgets

theorem queue_found {world : World} {object : Object} (found : world.objects con = some object) :
    queueOf world con = some object.con.mOutQueue := by
  simp [queueOf, view, found]

end Invariant

section Turns
variable {recorder after : Recorder} {pass next : Pass} {answer : SendAnswer} {left : Nat}
  {con : ConRef} {data : List Byte}

theorem append_here (streams : ConRef → List Byte) (con : ConRef) (bytes : List Byte) :
    append streams con bytes con = streams con ++ bytes := Function.update_self ..

theorem append_other (streams : ConRef → List Byte) {con other : ConRef} (bytes : List Byte)
    (different : other ≠ con) : append streams con bytes other = streams other :=
  Function.update_of_ne different ..

theorem search_world (pass : Pass) (object : Object) :
    (pass.search object).world = pass.world := by
  obtain ⟨cons, -, same⟩ := searched pass object
  rw [same]

/-- What the turn that calls `send()` does. -/
theorem trying_went (pc : pass.pc = .trying left con data)
    (turned : turn pass answer = some next) :
    next.world = pass.world ∧ (∃ object, pass.world.objects con = some object) ∧
      (((next.pc = .unlocking left con none ∨ next.pc = .closing left con) ∧
          sending pass answer = none) ∨
        ∃ count, count ≤ data.length ∧ next.pc = .unlocking left con (some count) ∧
          sending pass answer = some (con, data.take count)) := by
  simp only [turn, pc, Option.bind_eq_bind, Option.bind_eq_some_iff] at turned
  obtain ⟨object, found, result⟩ := turned
  have looked : (((pass.touch con .read).search object)).world = pass.world :=
    search_world _ object
  have sends : sending pass answer =
      match object.con.trySendData pass.status pass.workerId (connectionIds pass.world) answer with
      | .sent count => some (con, data.take count)
      | .refused | .closing => none := by
    simp [sending, pc, found]
  split at result
  · rename_i refused
    cases result
    exact ⟨looked, ⟨object, found⟩, .inl ⟨.inl rfl, by rw [sends, refused]⟩⟩
  · rename_i count sent
    split at result
    · rename_i bounded
      cases result
      exact ⟨looked, ⟨object, found⟩, .inr ⟨count, bounded, rfl, by rw [sends, sent]⟩⟩
    · cases result
  · rename_i closes
    cases result
    exact ⟨looked, ⟨object, found⟩, .inl ⟨.inr rfl, by rw [sends, closes]⟩⟩

/-- Nobody has written to the queue since it was measured. -/
theorem trying_kept (kept : Kept recorder) (pc : recorder.pass.pc = .trying left con data)
    (turned : turn recorder.pass answer = some next) :
    Kept (record recorder (.turn answer) next) := by
  have nothing : ∀ other, owed recorder.pass.pc other = 0 := by
    intro other
    rw [pc]
    rfl
  obtain ⟨world, ⟨object, found⟩, went⟩ := trying_went pc turned
  rcases went with ⟨stops, sends⟩ | ⟨count, bounded, sent, sends⟩
  · simp only [record, sends]
    refine quiet_kept kept (congrArg queueOf world) rfl rfl ?_ ?_
    · funext other
      rw [nothing]
      rcases stops with unlocks | closes
      · rw [unlocks]
        rfl
      · rw [closes]
        rfl
    · intro left' con' data' queue' impossible
      rcases stops with unlocks | closes
      · rw [unlocks] at impossible
        cases impossible
      · rw [closes] at impossible
        cases impossible
  · simp only [record, sends]
    have here := queue_found found
    have offered := kept.trying left con data _ pc here
    have took : data.take count = (bytesOf object.con.mOutQueue).take count := by
      rw [List.prefix_iff_eq_take.mp offered, List.take_take, Nat.min_eq_left bounded]
    refine ⟨?_, fun _ _ _ _ impossible => by
      rw [show next.pc = _ from sent] at impossible
      cases impossible⟩
    intro other queue listed
    have before : queueOf recorder.pass.world other = some queue := by rw [← world]; exact listed
    obtain ⟨holds, -, ledger⟩ := kept.streams other queue before
    rw [nothing, List.drop_zero] at ledger
    by_cases same : other = con
    · subst same
      cases Option.some.inj (before.symm.trans here)
      have owes : owed next.pc other = count := by rw [sent]; simp [owed]
      refine ⟨holds, ?_, ?_⟩
      · show owed next.pc other ≤ _
        rw [owes]
        exact Nat.le_trans bounded offered.length_le
      · show recorder.accepted other = append recorder.sent other (data.take count) other ++
          (bytesOf object.con.mOutQueue).drop (owed next.pc other)
        rw [append_here, owes, took, List.append_assoc, List.take_append_drop]
        exact ledger
    · have owes : owed next.pc other = 0 := by rw [sent]; simp [owed, same]
      refine ⟨holds, ?_, ?_⟩
      · show owed next.pc other ≤ _
        rw [owes]
        exact Nat.zero_le _
      · show recorder.accepted other = append recorder.sent con (data.take count) other ++
          (bytesOf queue).drop (owed next.pc other)
        rw [append_other _ _ same, owes]
        exact ledger

/-- The bytes that were sent leave the queue; what users wrote since stays behind them. -/
theorem dequeuing_kept {count : Nat} (kept : Kept recorder)
    (pc : recorder.pass.pc = .dequeuing left con count)
    (turned : turn recorder.pass answer = some next) :
    Kept (record recorder (.turn answer) next) := by
  have sends : sending recorder.pass answer = none := by simp [sending, pc]
  simp only [turn, pc, Option.bind_eq_bind, Option.bind_eq_some_iff] at turned
  obtain ⟨object, found, result⟩ := turned
  have here := queue_found found
  obtain ⟨holds, bounded, ledger⟩ := kept.streams con _ here
  have owes : owed recorder.pass.pc con = count := by rw [pc]; simp [owed]
  rw [owes] at bounded ledger
  obtain ⟨queue, pops, rest⟩ := holds.pop bounded
  have popped : object.con.pop count = .ok { object.con with mOutQueue := queue } := by
    simp [Asock.pop, pops, bind, Except.bind, pure, Except.pure]
  rw [popped] at result
  cases result
  simp only [record, sends]
  refine ⟨?_, fun _ _ _ _ impossible => by cases impossible⟩
  intro other queue' listed
  by_cases same : other = con
  · subst same
    have after : queue' = queue := by
      have put := listed
      simp only [Pass.goto, put_queue, if_true] at put
      exact (Option.some.inj put).symm
    subst after
    refine ⟨held_bytes rest, Nat.zero_le _, ?_⟩
    show recorder.accepted other = recorder.sent other ++ bytesOf queue'
    rw [bytes_held rest]
    exact ledger
  · have before : queueOf recorder.pass.world other = some queue' := by
      have put := listed
      simpa only [Pass.goto, put_queue, same, if_false] using put
    obtain ⟨holds', -, ledger'⟩ := kept.streams other queue' before
    have owesNot : owed recorder.pass.pc other = 0 := by rw [pc]; simp [owed, same]
    rw [owesNot] at ledger'
    exact ⟨holds', Nat.zero_le _, ledger'⟩

theorem measuring_kept (kept : Kept recorder) (pc : recorder.pass.pc = .measuring left con)
    (turned : turn recorder.pass answer = some next) :
    Kept (record recorder (.turn answer) next) := by
  have sends : sending recorder.pass answer = none := by simp [sending, pc]
  simp only [turn, pc, Option.bind_eq_bind, Option.bind_eq_some_iff] at turned
  obtain ⟨object, found, result⟩ := turned
  simp only [record, sends]
  split at result
  · cases result
    refine quiet_kept kept rfl rfl rfl ?_ (fun _ _ _ _ impossible => by cases impossible)
    rw [pc]
    rfl
  · rename_i offers
    cases result
    refine quiet_kept kept rfl rfl rfl ?_ ?_
    · rw [pc]
      rfl
    · intro left' con' data' queue' same here
      cases same
      cases Option.some.inj ((queue_found found).symm.trans here)
      rw [offered_chunk (kept.streams _ _ here).holds offers]
      exact List.take_prefix ..

theorem turn_kept (kept : Kept recorder) (turned : turn recorder.pass answer = some next) :
    Kept (record recorder (.turn answer) next) := by
  cases pc : recorder.pass.pc with
  | measuring left con => exact measuring_kept kept pc turned
  | trying left con data => exact trying_kept kept pc turned
  | dequeuing left con count => exact dequeuing_kept kept pc turned
  | visiting left =>
      have sends : sending recorder.pass answer = none := by simp [sending, pc]
      cases left with
      | zero => simp [turn, pc] at turned
      | succ left =>
          simp only [turn, pc, Option.bind_eq_bind, Option.bind_eq_some_iff] at turned
          obtain ⟨con, -, same⟩ := turned
          cases same
          simp only [record, sends]
          refine quiet_kept kept rfl rfl rfl ?_ (fun _ _ _ _ impossible => by cases impossible)
          rw [pc]
          rfl
  | closing left con =>
      have sends : sending recorder.pass answer = none := by simp [sending, pc]
      simp only [turn, pc, Option.bind_eq_bind, Option.bind_eq_some_iff] at turned
      obtain ⟨object, -, fd, -, same⟩ := turned
      cases same
      simp only [record, sends]
      cases (recorder.pass.world.shut fd.number).1 with
      | none =>
          refine quiet_kept kept (shut_queues _ _) rfl rfl ?_
            (fun _ _ _ _ impossible => by cases impossible)
          rw [pc]
          rfl
      | some found =>
          refine quiet_kept kept (shut_queues _ _) rfl rfl ?_
            (fun _ _ _ _ impossible => by cases impossible)
          rw [pc]
          rfl
  | dropping left con target index =>
      have sends : sending recorder.pass answer = none := by simp [sending, pc]
      simp only [turn, pc] at turned
      cases turned
      simp only [record, sends]
      refine quiet_kept kept (receipt_queues (dropAt_receipt _ target index)) rfl rfl ?_
        (fun _ _ _ _ impossible => by cases impossible)
      rw [pc]
      rfl
  | unlocking left con sent =>
      have sends : sending recorder.pass answer = none := by simp [sending, pc]
      simp only [turn, pc] at turned
      simp only [record, sends]
      cases sent with
      | none =>
          cases turned
          refine quiet_kept kept rfl rfl rfl ?_ (fun _ _ _ _ impossible => by cases impossible)
          rw [pc]
          rfl
      | some count =>
          cases turned
          refine quiet_kept kept rfl rfl rfl ?_ (fun _ _ _ _ impossible => by cases impossible)
          rw [pc]
          rfl

end Turns

section Users
variable {recorder after : Recorder} {next : Pass} {label : SendPass.Label} {con : ConRef}
  {src : List Byte} {answer : Allocation}

/-- The worker owes a queue no more than it held before the write. -/
theorem write_kept (kept : Kept recorder) (room : Room recorder.pass (.userWrite con src answer))
    (stepped : SendPass.step recorder.pass (.userWrite con src answer) = some next) :
    Kept (record recorder (.userWrite con src answer) next) := by
  obtain ⟨granted, addressable⟩ := room
  simp only [SendPass.step] at stepped
  split at stepped
  case isFalse => cases stepped
  case isTrue allowed =>
    simp only [userWrite, Option.bind_eq_bind, Option.bind_eq_some_iff] at stepped
    obtain ⟨object, found, result⟩ := stepped
    have here := queue_found found
    obtain ⟨holds, bounded, ledger⟩ := kept.streams con _ here
    have space := addressable object found
    rw [holds.length] at space
    obtain ⟨queue, enqueues, grown⟩ := holds.enqueue space granted
    have writes : object.con.write src answer =
        .ok (src.length, { object.con with mOutQueue := queue }) := by
      simp [Asock.write, enqueues, bind, Except.bind, pure, Except.pure]
    have takes : writing recorder.pass con src answer = src := by
      simp [writing, found, writes]
    rw [writes] at result
    cases result
    simp only [record, takes]
    refine ⟨?_, ?_⟩
    · intro other queue' listed
      by_cases same : other = con
      · subst same
        have put : queue' = queue := by
          have put := listed
          simp only [put_queue, if_true] at put
          exact (Option.some.inj put).symm
        subst put
        have more := bytes_held grown
        refine ⟨held_bytes grown, ?_, ?_⟩
        · rw [more, List.length_append]
          exact Nat.le_add_right_of_le bounded
        · show append recorder.accepted other src other = recorder.sent other ++
            (bytesOf queue').drop (owed recorder.pass.pc other)
          rw [append_here, more, List.drop_append_of_le_length bounded, ← List.append_assoc,
            ← ledger]
      · have before : queueOf recorder.pass.world other = some queue' := by
          have put := listed
          simpa only [put_queue, same, if_false] using put
        obtain ⟨holds', bounded', ledger'⟩ := kept.streams other queue' before
        refine ⟨holds', bounded', ?_⟩
        show append recorder.accepted con src other = _
        rw [append_other _ _ same]
        exact ledger'
    · intro left con' data queue' pc listed
      -- the queue under the worker's lock is not the one written to
      have different : con' ≠ con := by
        rintro rfl
        exact allowed.2 (by rw [show recorder.pass.pc = _ from pc]; rfl)
      have before : queueOf recorder.pass.world con' = some queue' := by
        have put := listed
        simpa only [put_queue, different, if_false] using put
      exact kept.trying left con' data queue' pc before

theorem user_kept (kept : Kept recorder) (room : Room recorder.pass label)
    (stepped : SendPass.step recorder.pass label = some next) :
    Kept (record recorder label next) := by
  cases label with
  | turn answer => exact turn_kept kept stepped
  | userWrite con src answer => exact write_kept kept room stepped
  | userDestroy con =>
      obtain ⟨world, destroys, rfl⟩ := Option.map_eq_some_iff.mp stepped
      have queues := receipt_queues (userDestroy_views receipt_uncounted destroys)
      exact quiet_kept kept queues rfl rfl rfl kept.trying
  | userConnect con =>
      simp only [SendPass.step] at stepped
      split at stepped
      · cases stepped
        have queues := receipt_queues (view_incr receipt_uncounted recorder.pass.world con)
        exact quiet_kept kept queues rfl rfl rfl kept.trying
      · cases stepped
  | userAccept =>
      obtain ⟨con, here, rfl⟩ := Option.map_eq_some_iff.mp stepped
      exact quiet_kept kept rfl rfl rfl rfl kept.trying

end Users

section Runs
variable {recorder after : Recorder} {label : Label}

theorem step_kept (kept : Kept recorder) (served : Served recorder label)
    (stepped : step recorder label = some after) : Kept after := by
  cases label with
  | inside label =>
      obtain ⟨next, steps, rfl⟩ := Option.map_eq_some_iff.mp stepped
      exact user_kept kept served steps
  | close number =>
      simp only [step] at stepped
      split at stepped
      · rename_i rests
        cases stepped
        refine quiet_kept kept (close_queues _ _) rfl rfl rfl ?_
        intro left con data queue impossible
        rw [show _ = Pc.visiting 0 from rests] at impossible
        cases impossible
      · cases stepped
  | nextPass =>
      simp only [step] at stepped
      split at stepped
      · rename_i rests
        cases stepped
        refine quiet_kept kept rfl rfl rfl ?_ (fun _ _ _ _ impossible => by cases impossible)
        rw [rests]
        rfl
      · cases stepped

/-- A pass that begins, over well-formed queues and with nothing recorded as sent. -/
structure Begun (recorder : Recorder) : Prop where
  pc : ∃ left, recorder.pass.pc = .visiting left
  queues : ∀ con queue, queueOf recorder.pass.world con = some queue →
    HoldsBytes queue (bytesOf queue)
  accepted : ∀ con queue, queueOf recorder.pass.world con = some queue →
    recorder.accepted con = bytesOf queue
  sent : ∀ con, recorder.sent con = []

theorem begun_kept (begun : Begun recorder) : Kept recorder := by
  obtain ⟨left, pc⟩ := begun.pc
  refine ⟨?_, ?_⟩
  · intro con queue found
    have owes : owed recorder.pass.pc con = 0 := by
      rw [pc]
      rfl
    refine ⟨begun.queues con queue found, ?_, ?_⟩
    · rw [owes]
      exact Nat.zero_le _
    · rw [owes, begun.sent, begun.accepted con queue found]
      rfl
  · intro left con data queue impossible
    rw [pc] at impossible
    cases impossible

end Runs

section Results

theorem streams_kept (first last : Recorder) (begun : Begun first)
    (run : GuardedRun step Served first last) :
    ∀ con object, last.pass.world.objects con = some object →
      HoldsBytes object.con.mOutQueue (bytesOf object.con.mOutQueue) ∧
      last.sent con <+: last.accepted con ∧
      last.accepted con = last.sent con ++
        (bytesOf object.con.mOutQueue).drop (owed last.pass.pc con) ∧
      (last.pass.pc = .visiting 0 →
        last.accepted con = last.sent con ++ bytesOf object.con.mOutQueue) := by
  have kept : Kept last := run.invariant Kept
    (fun _ _ _ kept served stepped => step_kept kept served stepped) (begun_kept begun)
  intro con object found
  obtain ⟨holds, -, ledger⟩ := kept.streams con _ (queue_found found)
  refine ⟨holds, ?_, ledger, ?_⟩
  · rw [ledger]
    exact List.prefix_append ..
  · intro rests
    rw [ledger, rests]
    rfl

theorem accepted_queues (con : ConRef) (queue : Tsqueue)
    (found : queueOf acceptedWorld con = some queue) : HoldsBytes queue [] := by
  cases con with
  | zero =>
      have ring : queueOf acceptedWorld 0 = some emptyRing := rfl
      rw [← Option.some.inj (ring.symm.trans found)]
      exact emptyRing_holds
  | succ con =>
      have absent : queueOf acceptedWorld (con + 1) = none := rfl
      rw [absent] at found
      cases found

-- The user writes between the `send()` of the first two bytes and the dequeue that drops them.
theorem write_between_stays : ∃ last, GuardedRun step Served
    ⟨begin .running 1 acceptedWorld, fun _ => [], fun _ => []⟩ last ∧
      last.sent 0 = [7, 8] ∧ last.accepted 0 = [7, 8, 9] ∧
      last.sent 0 <+: last.accepted 0 := by
  have begun : Begun ⟨begin .running 1 acceptedWorld, fun _ => [], fun _ => []⟩ := by
    refine ⟨⟨_, rfl⟩, ?_, ?_, fun _ => rfl⟩
    · intro con queue found
      exact held_bytes (accepted_queues con queue found)
    · intro con queue found
      exact (bytes_held (accepted_queues con queue found)).symm
  obtain ⟨last, run, tested⟩ := replayed step Served
    ⟨begin .running 1 acceptedWorld, fun _ => [], fun _ => []⟩
    [.inside (.userWrite 0 [7, 8] zeroed), .inside (.turn .again), .inside (.turn .again),
      .inside (.turn (.took 2)), .inside (.turn .again), .inside (.userWrite 0 [9] zeroed),
      .inside (.turn .again), .nextPass]
    (fun last => (last.pass.world.objects 0).isSome ∧ last.sent 0 = [7, 8] ∧
      last.accepted 0 = [7, 8, 9]) (by decide +kernel)
  obtain ⟨found, sent, accepted⟩ := of_decide_eq_true tested
  obtain ⟨object, found⟩ := Option.isSome_iff_exists.mp found
  exact ⟨last, run, sent, accepted, (streams_kept _ last begun run 0 object found).2.1⟩

end Results

end Libasock.OutputStreams
