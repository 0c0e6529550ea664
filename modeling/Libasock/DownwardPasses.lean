import Libasock.DownwardLoops
import Libasock.SendPass
import Mathlib.Data.List.Pairwise

/-!
The two passes that walk `m_connections` from its end: `send_unsent_data` and
`check_for_connections_to_close`, which the server and the service have in the
same words. The body may close the connection it is at, and the close erases an
entry that it looks up by its number. The worker is alone with its list here;
`SendPass` has the same visits with users in between.
-/

namespace Libasock.DownwardPasses
open ByteBlocks GuardedRuns NumberReuse ReturnCodes TsqueueModel ConnectionObjects WorkerWorld
  ReferenceCounts DescriptorOwnership SocketContents RegisteredConnections SendPass DownwardLoops

section Passes

structure Walk where
  world : World
  /-- The connections `asock_connections_at` has given to the loop. -/
  visits : List ConRef
  /-- The calls of `send()`, each with the bytes it was offered. -/
  sends : List (ConRef × List Byte)

def Walk.note (walk : Walk) (con : ConRef) : Walk := { walk with visits := walk.visits ++ [con] }

/-- `asock_connections_at` reads through the pointer that the vector returns, which is `NULL`
from the size on. -/
def connectionsAt (list : Connections) (index : Nat) : Outcome ConRef :=
  if list.lost then .error .outOfBounds
  else match list.items[index]? with
    | none => .error .outOfBounds
    | some con => .ok con

/-- `close_connection` asserts that the number it is given is one. -/
def closeOwn (world : World) (con : Asock) : Outcome World :=
  match con.mSockDesc with
  | none => .error .assertion
  | some fd => .ok (world.closeConnection fd.number).2

/-- The kernel takes no more than it is offered. -/
def kernelSend (answer : SendAnswer) (data : List Byte) : SendAnswer :=
  match answer with
  | .took count => .took (min count data.length)
  | .again => .again
  | .failed => .failed

def sendVisit (status : ServiceStatus) (workerId : Int) (answers : ConRef → SendAnswer)
    (walk : Walk) (con : ConRef) : Outcome Walk :=
  match walk.world.objects con with
  | none => .error .outOfBounds
  | some object =>
      match object.con.offered with
      | none => .ok walk
      | some data =>
          -- assert(data_to_send): without its block the head is `NULL` or points to no memory
          if object.con.mOutQueue.mData = [] then
            .error (if object.con.mOutQueue.mHeadPos = 0 then .assertion else .outOfBounds)
          else
            let sent := walk.sends ++ [(con, data)]
            match object.con.trySendData status workerId (connectionIds walk.world)
                (kernelSend (answers con) data) with
            | .refused => .ok walk
            | .closing => (closeOwn walk.world object.con).map fun world =>
                { walk with world := world, sends := sent }
            | .sent count =>
                if count ≤ object.con.mOutQueue.headSize then
                  (object.con.pop count).map fun after =>
                    { walk with
                      world := walk.world.put con { object with con := after }
                      sends := sent }
                else .error .assertion

def closeVisit (walk : Walk) (con : ConRef) : Outcome Walk :=
  match walk.world.objects con with
  | none => .error .outOfBounds
  | some object =>
      if object.con.mDisconnect then
        (closeOwn walk.world object.con).map fun world => { walk with world := world }
      else .ok walk

/-- A loop over `m_connections` from its end. -/
def pass (visit : Walk → ConRef → Outcome Walk) (fuel : Nat) (world : World) : Outcome Walk :=
  walk fuel
    (fun index walk => do
      let con ← connectionsAt walk.world.mConnections index
      visit (walk.note con) con)
    world.mConnections.items.length ⟨world, [], []⟩

/-- `asock_server_send_unsent_data` and `asock_service_send_unsent_data` -/
def sendUnsentData (fuel : Nat) (status : ServiceStatus) (workerId : Int)
    (answers : ConRef → SendAnswer) (world : World) : Outcome Walk :=
  pass (sendVisit status workerId answers) fuel world

/-- `asock_server_check_for_connections_to_close` and its twin of the service -/
def checkForConnectionsToClose (fuel : Nat) (world : World) : Outcome Walk :=
  pass closeVisit fuel world

end Passes

section Lists

theorem eraseIdx_filter {items : List ConRef} {con : ConRef} {index : Nat}
    (here : items[index]? = some con) (single : items.count con ≤ 1) :
    items.eraseIdx index = items.filter fun other => other != con := by
  induction items generalizing index with
  | nil => cases here
  | cons first rest ih =>
      cases index with
      | zero =>
          rw [List.getElem?_cons_zero, Option.some.injEq] at here
          subst here
          rw [List.count_cons_self] at single
          have absent : first ∉ rest := List.count_eq_zero.mp (by omega)
          have kept : rest.filter (fun other => other != first) = rest :=
            List.filter_eq_self.mpr fun other member => by
              rw [bne_iff_ne]
              rintro rfl
              exact absent member
          simp [kept]
      | succ index =>
          rw [List.getElem?_cons_succ] at here
          have later := List.count_pos_iff.mpr (List.mem_of_getElem? here)
          have different : first ≠ con := by
            rintro rfl
            rw [List.count_cons_self] at single
            omega
          rw [List.count_cons_of_ne different] at single
          simp [ih here single, different]

/-- What the close forgets of `m_new_connections` is the connection itself. -/
theorem forgetNew_filters {world : World} {number : Nat} {con : ConRef}
    (own : ∀ waiting ∈ world.mNewConnections.items,
      world.hasSockDesc number waiting = true → waiting = con)
    (has : world.hasSockDesc number con = true)
    (single : world.mNewConnections.items.count con ≤ 1) :
    (world.forgetNew number).mNewConnections.items =
      world.mNewConnections.items.filter fun other => other != con := by
  unfold World.forgetNew
  cases found : world.mNewConnections.items.findIdx? (world.hasSockDesc number) with
  | none =>
      have unmatched := List.findIdx?_eq_none_iff.mp found
      refine (List.filter_eq_self.mpr fun other member => ?_).symm
      rw [bne_iff_ne]
      rintro rfl
      rw [unmatched other member] at has
      cases has
  | some index =>
      obtain ⟨inside, hit, _⟩ := List.findIdx?_eq_some_iff_getElem.mp found
      have same := own _ (List.getElem_mem inside) hit
      exact eraseIdx_filter (same ▸ List.getElem?_eq_getElem inside) single

end Lists

section Closing

variable {world : World} {con : ConRef} {object : Object} {fd : Descriptor}

def closings (object : Object) (fd : Descriptor) : List Descriptor :=
  if object.con.mRefCounter = 1 then [fd, fd] else [fd]

def closedDescriptors (world : World) : List Descriptor :=
  world.table.closes.map fun call => call.descriptor

/-- What closing one connection of the list does. -/
structure Closed (before after : World) (con : ConRef) (object : Object) (fd : Descriptor) :
    Prop where
  usable : after.mConnections.lost = before.mConnections.lost
  connections : after.mConnections.items =
    before.mConnections.items.filter fun other => other != con
  newConnections : after.mNewConnections.items =
    before.mNewConnections.items.filter fun other => other != con
  others : ∀ other, other ≠ con → after.objects other = before.objects other
  failed : ∃ last, after.objects con = some last ∧ last.con.mState = .failed ∧
    last.con.mSockDesc = some fd
  closes : closedDescriptors after = closedDescriptors before ++ closings object fd

/-- The connection as its close leaves it. -/
def closedObject (object : Object) : Object :=
  { object with
    con := { object.con with
      mState := .failed, mDisconnect := true, mRefCounter := object.con.mRefCounter - 1 }
    released := object.released || decide (object.con.mRefCounter = 1) }

theorem closeAt_shape (index : Nat) (found : world.objects con = some object)
    (remembers : object.con.mSockDesc = some fd) :
    (world.closeAt con index).objects = (world.put con (closedObject object)).objects ∧
    (world.closeAt con index).table =
      if object.con.mRefCounter = 1 then (world.table.close fd).close fd
      else world.table.close fd := by
  have zero : object.con.mRefCounter - 1 = 0 ↔ object.con.mRefCounter = 1 := by omega
  by_cases last : object.con.mRefCounter = 1 <;>
    simp [World.closeAt, World.setState, found, World.close, World.destroyAsock, World.put,
      World.setConnections, remembers, Object.dropped, zero, last, closedObject]

theorem closeAt_descriptors (index : Nat) (found : world.objects con = some object)
    (remembers : object.con.mSockDesc = some fd) :
    closedDescriptors (world.closeAt con index) =
      closedDescriptors world ++ closings object fd := by
  rw [closedDescriptors, (closeAt_shape index found remembers).2, closings]
  split <;> simp [Table.close, closedDescriptors]

theorem closeAt_lists (world : World) (con : ConRef) (index : Nat) :
    (world.closeAt con index).mConnections = world.mConnections.erase index ∧
      (world.closeAt con index).mNewConnections = world.mNewConnections := by
  have lists := (setState_lists world con .failed).trans ((close_lists _
    ((world.objects con).bind fun object => object.con.mSockDesc)).trans (destroy_lists _ con))
  exact ⟨congrArg (fun list => list.erase index) lists.connections, lists.new⟩

/-- The entry that the lookup finds is the connection's own. -/
theorem close_own (found : world.objects con = some object)
    (remembers : object.con.mSockDesc = some fd) (listed : con ∈ world.mConnections.items)
    (single : world.mConnections.items.Nodup)
    (own : ∀ other ∈ world.mConnections.items, world.hasSockDesc fd.number other = true → other = con)
    (ownNew : ∀ waiting ∈ world.mNewConnections.items,
      world.hasSockDesc fd.number waiting = true → waiting = con)
    (singleNew : world.mNewConnections.items.count con ≤ 1) :
    Closed world (world.closeConnection fd.number).2 con object fd := by
  have has := object_has world found remembers rfl
  have forgets := forgetNew_filters ownNew has singleNew
  have foundThere : (world.forgetNew fd.number).objects con = some object := by
    rw [forgetNew_objects]
    exact found
  rcases close_found world fd.number with
    ⟨unknown, _⟩ | ⟨other, index, _, _, _, here, there, keeps, hit, same⟩
  · rcases lookup_cases world fd.number with ⟨absent, _⟩ | ⟨_, _, _, known, _⟩
    · rw [World.indexOfConBySockDesc, List.findIdx?_eq_none_iff] at absent
      rw [absent con listed] at has
      cases has
    · rw [unknown] at known
      cases known
  · have self := own other (List.mem_of_getElem? here) (object_has world there keeps hit)
    subst self
    obtain ⟨objects, _⟩ := closeAt_shape index foundThere remembers
    rw [same]
    constructor
    case usable =>
      rw [(closeAt_lists ..).1, forgetNew_connections]
      rfl
    case connections =>
      rw [closeAt_items, forgetNew_connections]
      exact eraseIdx_filter here (List.nodup_iff_count_le_one.mp single other)
    case newConnections => rw [(closeAt_lists ..).2, forgets]
    case others =>
      intro another different
      rw [objects]
      simp [World.put, different]
    case failed =>
      refine ⟨closedObject object, ?_, rfl, remembers⟩
      rw [objects]
      simp [World.put]
    case closes =>
      rw [closeAt_descriptors index foundThere remembers, closedDescriptors, forgetNew_table]
      rfl

end Closing

section Filtering

/-- The lists that the passes may start from: the registered connections have pairwise different
descriptors, and those that wait are registered in the same order or have other descriptors. -/
structure Fit (world : World) : Prop where
  usable : world.mConnections.lost = false
  sized : world.mConnections.items.length < sizeBound
  registered : ∀ con ∈ world.mConnections.items, ∃ object fd,
    world.objects con = some object ∧ object.con.mSockDesc = some fd
  apart : world.mConnections.items.Pairwise fun left right =>
    ∀ number, ¬ (world.hasSockDesc number left = true ∧ world.hasSockDesc number right = true)
  waiting : world.mNewConnections.items.Sublist world.mConnections.items ∨
    ∀ waiting ∈ world.mNewConnections.items, ∀ con ∈ world.mConnections.items, ∀ number,
      world.hasSockDesc number con = true → world.hasSockDesc number waiting = false

/-- One visit closes the connection it is at or leaves it but for its pending output. -/
structure Visited (gone : Bool) (before after : Walk) (con : ConRef) (object : Object)
    (fd : Descriptor) : Prop where
  visits : after.visits = before.visits
  closed : gone = true → after.world = (before.world.closeConnection fd.number).2
  kept : gone = false → after.world = before.world ∨ ∃ queue, after.world =
    before.world.put con { object with con := { object.con with mOutQueue := queue } }

/-- The pass as a filter of both lists. -/
structure Filtered (before : World) (gone : ConRef → Bool) (after : Walk) : Prop where
  visits : after.visits = before.mConnections.items.reverse
  connections : after.world.mConnections.items =
    before.mConnections.items.filter fun con => !gone con
  newConnections : after.world.mNewConnections.items = before.mNewConnections.items.filter
    fun con => !(decide (con ∈ before.mConnections.items) && gone con)
  failed : ∀ con ∈ before.mConnections.items, gone con = true →
    ∃ object, after.world.objects con = some object ∧ object.con.mState = .failed
  kept : ∀ con ∈ before.mConnections.items, gone con = false →
    ∃ object queue, before.objects con = some object ∧ after.world.objects con =
      some { object with con := { object.con with mOutQueue := queue } }
  others : ∀ con, con ∉ before.mConnections.items →
    after.world.objects con = before.objects con

variable {world : World} {con other : ConRef} {number : Nat}

theorem fit_owner (fit : Fit world) (listed : con ∈ world.mConnections.items)
    (otherListed : other ∈ world.mConnections.items) (has : world.hasSockDesc number con = true)
    (otherHas : world.hasSockDesc number other = true) : other = con := by
  by_contra different
  have symmetric : Std.Symm fun left right : ConRef => ∀ number,
      ¬ (world.hasSockDesc number left = true ∧ world.hasSockDesc number right = true) :=
    ⟨fun _ _ nowhere number both => nowhere number both.symm⟩
  exact fit.apart.forall otherListed listed different number ⟨otherHas, has⟩

theorem fit_single (fit : Fit world) : world.mConnections.items.Nodup := by
  refine fit.apart.imp_of_mem ?_
  rintro left right leftListed _ nowhere rfl
  obtain ⟨object, fd, found, remembers⟩ := fit.registered left leftListed
  have has := object_has world found remembers rfl
  exact nowhere fd.number ⟨has, has⟩

theorem fit_waiting (fit : Fit world) (listed : con ∈ world.mConnections.items)
    (has : world.hasSockDesc number con = true) :
    (∀ waiting ∈ world.mNewConnections.items,
      world.hasSockDesc number waiting = true → waiting = con) ∧
    world.mNewConnections.items.count con ≤ 1 := by
  rcases fit.waiting with sublist | apart
  · refine ⟨fun waiting member waitingHas =>
      fit_owner fit listed (sublist.subset member) has waitingHas, ?_⟩
    exact List.nodup_iff_count_le_one.mp ((fit_single fit).sublist sublist) con
  · refine ⟨fun waiting member waitingHas => ?_, ?_⟩
    · rw [apart waiting member con listed number has] at waitingHas
      cases waitingHas
    · rw [List.count_eq_zero.mpr]
      · omega
      · intro member
        rw [apart con member con listed number has] at has
        cases has

/-- The close calls that closing a connection takes. -/
def ownClosings (world : World) (con : ConRef) : List Descriptor :=
  ((world.objects con).bind fun object =>
    object.con.mSockDesc.map fun fd => closings object fd).getD []

/-- Where the pass stands after the visits of `done`, the end of the list it started from. -/
structure Sofar (before : World) (gone : ConRef → Bool) (done : List ConRef) (now : Walk) :
    Prop where
  usable : now.world.mConnections.lost = false
  visits : now.visits = done.reverse
  newConnections : now.world.mNewConnections.items = before.mNewConnections.items.filter
    fun con => !(decide (con ∈ done) && gone con)
  remembered : ∀ con, assigned now.world none (some con) = assigned before none (some con)
  failed : ∀ con ∈ done, gone con = true →
    ∃ object, now.world.objects con = some object ∧ object.con.mState = .failed
  kept : ∀ con ∈ done, gone con = false →
    ∃ object queue, before.objects con = some object ∧ now.world.objects con =
      some { object with con := { object.con with mOutQueue := queue } }
  others : ∀ con, con ∉ done → now.world.objects con = before.objects con
  closes : closedDescriptors now.world =
    closedDescriptors before ++ (done.filter gone).reverse.flatMap (ownClosings before)

section Turns

variable {gone : ConRef → Bool} {front done : List ConRef} {now next : Walk} {object : Object}
  {fd : Descriptor}

theorem sofar_has (sofar : Sofar world gone done now) (number : Nat) (con : ConRef) :
    now.world.hasSockDesc number con = world.hasSockDesc number con := by
  have any : ∀ other : World, other.hasSockDesc number con =
      (assigned other none (some con)).any fun fd => fd.number == number := by
    intro other
    unfold World.hasSockDesc
    cases found : other.objects con <;> simp [assigned, found]
  rw [any, any, sofar.remembered]

theorem gone_sofar (leaves : gone con = true)
    (found : world.objects con = some object) (remembers : object.con.mSockDesc = some fd)
    (sofar : Sofar world gone done now) (visits : next.visits = (now.note con).visits)
    (closed : Closed now.world next.world con object fd) :
    Sofar world gone (con :: done) next := by
  constructor
  case usable => rw [closed.usable, sofar.usable]
  case visits => rw [visits, Walk.note, sofar.visits, List.reverse_cons]
  case newConnections =>
    rw [closed.newConnections, sofar.newConnections, List.filter_filter]
    refine List.filter_congr fun other _ => ?_
    by_cases same : other = con
    · simp [same, leaves]
    · simp [same]
  case remembered =>
    intro other
    by_cases same : other = con
    · subst same
      obtain ⟨last, here, _, keeps⟩ := closed.failed
      rw [assigned_some here keeps, assigned_some found remembers]
    · rw [← sofar.remembered other]
      simp only [assigned, closed.others other same]
  case failed =>
    intro other member lost
    by_cases same : other = con
    · subst same
      obtain ⟨last, here, failed, _⟩ := closed.failed
      exact ⟨last, here, failed⟩
    · rw [closed.others other same]
      exact sofar.failed other (List.mem_of_ne_of_mem same member) lost
  case kept =>
    intro other member stays
    have different : other ≠ con := by
      rintro rfl
      rw [leaves] at stays
      cases stays
    rw [closed.others other different]
    exact sofar.kept other (List.mem_of_ne_of_mem different member) stays
  case others =>
    intro other absent
    rw [List.mem_cons, not_or] at absent
    rw [closed.others other absent.1]
    exact sofar.others other absent.2
  case closes =>
    have own : ownClosings world con = closings object fd := by
      simp [ownClosings, found, remembers]
    rw [closed.closes, sofar.closes, List.filter_cons_of_pos leaves, List.reverse_cons,
      List.flatMap_append, List.append_assoc, List.flatMap_singleton, own]

theorem kept_sofar (fresh : con ∉ done) (stays : gone con = false)
    (found : world.objects con = some object) (sofar : Sofar world gone done now)
    (visits : next.visits = (now.note con).visits)
    (kept : next.world = now.world ∨ ∃ queue, next.world =
      now.world.put con { object with con := { object.con with mOutQueue := queue } }) :
    Sofar world gone (con :: done) next := by
  obtain ⟨queue, here, elsewhere, lists, table⟩ : ∃ queue,
      next.world.objects con =
        some { object with con := { object.con with mOutQueue := queue } } ∧
      (∀ other, other ≠ con → next.world.objects other = now.world.objects other) ∧
      SameLists now.world next.world ∧ next.world.table = now.world.table := by
    rcases kept with same | ⟨queue, same⟩
    · rw [same]
      exact ⟨object.con.mOutQueue, (sofar.others con fresh).trans found, fun _ _ => rfl,
        ⟨rfl, rfl, rfl, rfl⟩, rfl⟩
    · rw [same]
      exact ⟨queue, put_here .., fun other different => by simp [World.put, different],
        put_lists .., rfl⟩
  constructor
  case usable => rw [lists.connections, sofar.usable]
  case visits => rw [visits, Walk.note, sofar.visits, List.reverse_cons]
  case newConnections =>
    rw [lists.new, sofar.newConnections]
    refine List.filter_congr fun other _ => ?_
    by_cases same : other = con
    · simp [same, stays]
    · simp [same]
  case remembered =>
    intro other
    by_cases same : other = con
    · subst same
      simp only [assigned, here, found, Option.bind_some]
    · rw [← sofar.remembered other]
      simp only [assigned, elsewhere other same]
  case failed =>
    intro other member lost
    have different : other ≠ con := by
      rintro rfl
      rw [stays] at lost
      cases lost
    rw [elsewhere other different]
    exact sofar.failed other (List.mem_of_ne_of_mem different member) lost
  case kept =>
    intro other member remains
    by_cases same : other = con
    · subst same
      exact ⟨object, queue, found, here⟩
    · rw [elsewhere other same]
      exact sofar.kept other (List.mem_of_ne_of_mem same member) remains
  case others =>
    intro other absent
    rw [List.mem_cons, not_or] at absent
    rw [elsewhere other absent.1]
    exact sofar.others other absent.2
  case closes =>
    rw [closedDescriptors, table, List.filter_cons_of_neg (by rw [stays]; exact Bool.false_ne_true)]
    exact sofar.closes

/-- A visit does at its connection what `gone` says. -/
def Keeps (world : World) (gone : ConRef → Bool) (visit : Walk → ConRef → Outcome Walk) : Prop :=
  ∀ now con object fd, con ∈ now.world.mConnections.items → world.objects con = some object →
    object.con.mSockDesc = some fd → now.world.objects con = some object →
      con ∈ world.mConnections.items →
        ∃ after, visit now con = .ok after ∧ Visited (gone con) now after con object fd

theorem filtered_without {front rest : List ConRef} (single : (front ++ con :: rest).Nodup) :
    (front ++ con :: rest).filter (fun other => other != con) = front ++ rest := by
  have apart := List.nodup_middle.mp single
  obtain ⟨absent, _⟩ := List.nodup_cons.mp apart
  rw [List.mem_append, not_or] at absent
  have stay : ∀ items : List ConRef, con ∉ items →
      items.filter (fun other => other != con) = items := by
    intro items absent
    refine List.filter_eq_self.mpr fun other member => ?_
    rw [bne_iff_ne]
    rintro rfl
    exact absent member
  rw [List.filter_append, List.filter_cons_of_neg (by simp), stay front absent.1, stay rest absent.2]

theorem place_facts (fit : Fit world) (shape : world.mConnections.items = front ++ con :: done) :
    con ∈ world.mConnections.items ∧ con ∉ done := by
  have single := fit_single fit
  rw [shape] at single ⊢
  refine ⟨?_, (List.nodup_cons.mp single.of_append_right).1⟩
  rw [List.mem_append]
  exact .inr List.mem_cons_self

/-- A turn gives the connection at its index to the body and touches no other object. -/
theorem turn_sofar {visit : Walk → ConRef → Outcome Walk} (fit : Fit world)
    (keeps : Keeps world gone visit) (shape : world.mConnections.items = front ++ con :: done)
    (items : now.world.mConnections.items = front ++ con :: done.filter fun con => !gone con)
    (sofar : Sofar world gone done now) :
    ∃ next, (do
        let con ← connectionsAt now.world.mConnections front.length
        visit (now.note con) con) = .ok next ∧
      next.world.mConnections.items =
        front ++ (con :: done).filter (fun con => !gone con) ∧
      Sofar world gone (con :: done) next ∧ visit (now.note con) con = .ok next ∧
      ∀ other, other ≠ con → next.world.objects other = now.world.objects other := by
  have single := fit_single fit
  obtain ⟨listed, fresh⟩ := place_facts fit shape
  have here : con ∈ now.world.mConnections.items := by
    rw [items]
    simp
  have fetched : connectionsAt now.world.mConnections front.length = .ok con := by
    simp [connectionsAt, sofar.usable, items]
  obtain ⟨object, fd, found, remembers⟩ := fit.registered con listed
  have foundNow := (sofar.others con fresh).trans found
  obtain ⟨next, visits, visited⟩ := keeps (now.note con) con object fd here found remembers foundNow
    listed
  refine ⟨next, by rw [fetched]; exact visits, ?_⟩
  have within : (front ++ con :: done.filter fun con => !gone con).Sublist
      world.mConnections.items := by
    rw [shape]
    exact (List.Sublist.refl front).append (List.filter_sublist.cons_cons con)
  -- only the entries before the current one and those kept behind it are searched by number
  cases leaves : gone con with
  | true =>
      have has := object_has world found remembers rfl
      obtain ⟨ownNew, singleNew⟩ := fit_waiting fit listed has
      have closed : Closed now.world next.world con object fd := by
        rw [visited.closed leaves]
        refine close_own foundNow remembers here ?_ ?_ ?_ ?_
        · rw [items]
          exact single.sublist within
        · intro other member otherHas
          rw [items] at member
          rw [sofar_has sofar] at otherHas
          exact fit_owner fit listed (within.subset member) has otherHas
        · intro waiting member waitingHas
          rw [sofar.newConnections] at member
          rw [sofar_has sofar] at waitingHas
          exact ownNew waiting (List.mem_of_mem_filter member) waitingHas
        · rw [sofar.newConnections]
          exact Nat.le_trans (List.filter_sublist.count_le con) singleNew
      refine ⟨?_, gone_sofar leaves found remembers sofar visited.visits closed, visits,
        closed.others⟩
      rw [closed.connections, items, filtered_without (single.sublist within),
        List.filter_cons_of_neg (by simp [leaves])]
  | false =>
      have kept := visited.kept leaves
      refine ⟨?_, kept_sofar fresh leaves found sofar visited.visits kept, visits, ?_⟩
      · have same : next.world.mConnections = now.world.mConnections := by
          rcases kept with same | ⟨queue, same⟩ <;> rw [same] <;> rfl
        rw [same, items, List.filter_cons_of_pos (by simp [leaves])]
      · intro other different
        rcases kept with same | ⟨queue, same⟩
        · rw [same, Walk.note]
        · rw [same]
          simp [World.put, different, Walk.note]

end Turns

/-- Whatever the visits decide, the loop ends, is never out of bounds and filters both lists.
`more` may say what else the visits of a list's end have done. -/
theorem pass_invariant {gone : ConRef → Bool} {visit : Walk → ConRef → Outcome Walk} {fuel : Nat}
    (more : List ConRef → Walk → Prop) (fit : Fit world) (keeps : Keeps world gone visit)
    (enough : world.mConnections.items.length < fuel)
    (turns : ∀ con done now next, con ∈ world.mConnections.items → con ∉ done →
      con ∈ now.world.mConnections.items → Sofar world gone done now →
        visit (now.note con) con = .ok next →
          (∀ other, other ≠ con → next.world.objects other = now.world.objects other) →
            more done now → more (con :: done) next)
    (begun : more [] ⟨world, [], []⟩) :
    ∃ last, pass visit fuel world = .ok last ∧ Filtered world gone last ∧
      closedDescriptors last.world = closedDescriptors world ++
        (world.mConnections.items.filter gone).reverse.flatMap (ownClosings world) ∧
      more world.mConnections.items last := by
  have start : Sofar world gone [] ⟨world, [], []⟩ := by
    constructor
    case usable => exact fit.usable
    case visits => rfl
    case newConnections => simp
    case remembered => exact fun _ => rfl
    case failed =>
      intro _ impossible
      cases impossible
    case kept =>
      intro _ impossible
      cases impossible
    case others => exact fun _ _ => rfl
    case closes => simp
  let items := fun walk : Walk => walk.world.mConnections.items
  let inv := fun (done : List ConRef) (walk : Walk) => Sofar world gone done walk ∧ more done walk
  let body := fun (index : Nat) (walk : Walk) => do
    let con ← connectionsAt walk.world.mConnections index
    visit (walk.note con) con
  have turned : ∀ front con done walk, world.mConnections.items = front ++ con :: done →
      items walk = front ++ con :: done.filter (fun con => !gone con) → inv done walk →
        ∃ next, body front.length walk = .ok next ∧
          items next = front ++ (con :: done).filter (fun con => !gone con) ∧
            inv (con :: done) next := by
    rintro front con done walk shape now ⟨sofar, held⟩
    obtain ⟨next, runs, filtered, after, visits, frame⟩ := turn_sofar fit keeps shape now sofar
    obtain ⟨listed, fresh⟩ := place_facts fit shape
    have here : con ∈ walk.world.mConnections.items := by
      rw [show walk.world.mConnections.items = _ from now]
      simp
    exact ⟨next, runs, filtered, after, turns con done walk next listed fresh here sofar visits frame
      held⟩
  obtain ⟨last, walks, filtered, sofar, held⟩ := walk_filters items (fun con => !gone con)
    world.mConnections.items inv fit.sized enough turned rfl ⟨start, begun⟩
  refine ⟨last, walks, ?_, sofar.closes, held⟩
  exact ⟨sofar.visits, filtered, sofar.newConnections, sofar.failed, sofar.kept, sofar.others⟩

theorem pass_filters {gone : ConRef → Bool} {visit : Walk → ConRef → Outcome Walk} {fuel : Nat}
    (fit : Fit world) (keeps : Keeps world gone visit)
    (enough : world.mConnections.items.length < fuel) :
    ∃ last, pass visit fuel world = .ok last ∧ Filtered world gone last ∧
      closedDescriptors last.world = closedDescriptors world ++
        (world.mConnections.items.filter gone).reverse.flatMap (ownClosings world) := by
  obtain ⟨last, walks, filtered, closes, _⟩ := pass_invariant (fun _ _ => True) fit keeps enough
    (fun _ _ _ _ _ _ _ _ _ _ _ => trivial) trivial
  exact ⟨last, walks, filtered, closes⟩

end Filtering

section Closes

variable {world : World} {gone : ConRef → Bool} {con : ConRef} {fd : Descriptor}

/-- One call of `close()` for the descriptor of each connection that leaves the list, and none for
the others. -/
def ClosedOnce (before : World) (gone : ConRef → Bool) (after : World) : Prop :=
  ∀ con ∈ before.mConnections.items, ∀ object fd,
    before.objects con = some object → object.con.mSockDesc = some fd →
      ((closedDescriptors after).drop (closedDescriptors before).length).count fd =
        if gone con then 1 else 0

/-- The list's own reference is not the last one of a connection that leaves it. -/
def Outlived (world : World) (gone : ConRef → Bool) : Prop :=
  ∀ con ∈ world.mConnections.items, gone con = true → counter world con ≠ 1

instance (world : World) (gone : ConRef → Bool) : Decidable (Outlived world gone) :=
  inferInstanceAs (Decidable (∀ con ∈ world.mConnections.items,
    gone con = true → counter world con ≠ 1))

theorem flatMap_count {parts : ConRef → List Descriptor} {cons : List ConRef}
    (single : cons.Nodup) (member : con ∈ cons)
    (others : ∀ other ∈ cons, other ≠ con → fd ∉ parts other) :
    (cons.flatMap parts).count fd = (parts con).count fd := by
  induction cons with
  | nil => cases member
  | cons first rest ih =>
      obtain ⟨absent, restSingle⟩ := List.nodup_cons.mp single
      rw [List.flatMap_cons, List.count_append]
      by_cases here : first = con
      · subst here
        have nowhere : (rest.flatMap parts).count fd = 0 := by
          rw [List.count_eq_zero, List.mem_flatMap]
          rintro ⟨other, inRest, has⟩
          have different : other ≠ first := by
            rintro rfl
            exact absent inRest
          exact others other (List.mem_cons_of_mem _ inRest) different has
        omega
      · have later := ih restSingle (List.mem_of_ne_of_mem (Ne.symm here) member)
          fun other inRest => others other (List.mem_cons_of_mem _ inRest)
        have nowhere : (parts first).count fd = 0 :=
          List.count_eq_zero.mpr (others first List.mem_cons_self here)
        omega

theorem own_closings {object : Object} (found : world.objects con = some object)
    (remembers : object.con.mSockDesc = some fd) :
    ownClosings world con = if counter world con = 1 then [fd, fd] else [fd] := by
  simp [ownClosings, found, remembers, counter_some found, closings]

/-- No other connection of the list closes the descriptor. -/
theorem others_closings {object : Object} {other : ConRef} (fit : Fit world)
    (listed : con ∈ world.mConnections.items) (found : world.objects con = some object)
    (remembers : object.con.mSockDesc = some fd) (otherListed : other ∈ world.mConnections.items)
    (different : other ≠ con) : fd ∉ ownClosings world other := by
  intro closing
  obtain ⟨otherObject, otherFd, otherFound, otherRemembers⟩ := fit.registered other otherListed
  rw [own_closings otherFound otherRemembers] at closing
  have same : fd = otherFd := by
    split at closing <;> simpa using closing
  have has := object_has world found remembers rfl
  have otherHas := object_has world otherFound (same ▸ otherRemembers) rfl
  exact different (fit_owner fit listed otherListed has otherHas)

/-- The last reference closes the descriptor once more. -/
theorem closed_once {after : World} (fit : Fit world)
    (closes : closedDescriptors after = closedDescriptors world ++
      (world.mConnections.items.filter gone).reverse.flatMap (ownClosings world)) :
    ClosedOnce world gone after ↔ Outlived world gone := by
  have counts : ∀ con ∈ world.mConnections.items, ∀ object fd,
      world.objects con = some object → object.con.mSockDesc = some fd →
        ((closedDescriptors after).drop (closedDescriptors world).length).count fd =
          if gone con then if counter world con = 1 then 2 else 1 else 0 := by
    intro con listed object fd found remembers
    have others : ∀ other ∈ (world.mConnections.items.filter gone).reverse, other ≠ con →
        fd ∉ ownClosings world other := fun other member =>
      others_closings fit listed found remembers
        (List.mem_of_mem_filter (List.mem_reverse.mp member))
    -- the closes of this pass, of which the connection's own are one part
    rw [closes, List.drop_left]
    cases leaves : gone con with
    | true =>
        have single := List.nodup_reverse.mpr ((fit_single fit).filter gone)
        have member : con ∈ (world.mConnections.items.filter gone).reverse := by
          rw [List.mem_reverse, List.mem_filter]
          exact ⟨listed, leaves⟩
        rw [flatMap_count single member others, own_closings found remembers, if_pos rfl]
        split <;> simp
    | false =>
        rw [if_neg Bool.false_ne_true, List.count_eq_zero, List.mem_flatMap]
        rintro ⟨other, member, has⟩
        have different : other ≠ con := by
          rintro rfl
          rw [List.mem_reverse, List.mem_filter, leaves] at member
          cases member.2
        exact others other member different has
  constructor
  · intro once con listed leaves last
    obtain ⟨object, fd, found, remembers⟩ := fit.registered con listed
    have count := counts con listed object fd found remembers
    rw [once con listed object fd found remembers, leaves, if_pos rfl, if_pos rfl, if_pos last]
      at count
    cases count
  · intro outlived con listed object fd found remembers
    rw [counts con listed object fd found remembers]
    cases leaves : gone con with
    | true => rw [if_pos rfl, if_pos rfl, if_neg (outlived con listed leaves)]
    | false => rfl

end Closes

section Visits

variable {world : World} {con : Asock} {status : ServiceStatus} {workerId : Int} {ids : List Nat}
  {answer : SendAnswer}

/-- A connection that its user has given up. -/
def flagged (world : World) (con : ConRef) : Bool :=
  (world.objects con).any fun object => object.con.mDisconnect

/-- A connection whose `send()` is called and fails for good. -/
def failing (status : ServiceStatus) (workerId : Int) (answers : ConRef → SendAnswer)
    (world : World) (con : ConRef) : Bool :=
  (world.objects con).any fun object =>
    decide (status = .running) && decide (object.con.mMasterId = workerId) &&
      decide (object.con.mState = .established) && decide (object.con.mOutQueue.headSize ≠ 0) &&
        decide (answers con = .failed)

/-- Every registered connection has the block of its output queue. -/
def Blocked (world : World) : Prop :=
  ∀ con ∈ world.mConnections.items, ∀ object, world.objects con = some object →
    object.con.mOutQueue.mData ≠ []

theorem flagged_keeps (world : World) : Keeps world (flagged world) closeVisit := by
  intro now con object fd _ found remembers foundNow _
  have flag : flagged world con = object.con.mDisconnect := by simp [flagged, found]
  cases gone : object.con.mDisconnect with
  | true =>
      refine ⟨{ now with world := (now.world.closeConnection fd.number).2 }, ?_, ?_⟩
      · simp [closeVisit, foundNow, gone, closeOwn, remembers, Except.map]
      · rw [flag, gone]
        exact ⟨rfl, fun _ => rfl, fun impossible => by cases impossible⟩
  | false =>
      refine ⟨now, by simp [closeVisit, foundNow, gone], ?_⟩
      rw [flag, gone]
      constructor
      case visits => rfl
      case closed =>
        intro impossible
        cases impossible
      case kept => exact fun _ => .inl rfl

theorem pop_total (con : Asock) (count : Nat) :
    ∃ queue, con.pop count = .ok { con with mOutQueue := queue } := by
  by_cases straight : addSize con.mOutQueue.mHeadPos (min count con.mOutQueue.mSize) ≤
      con.mOutQueue.mCapacity <;>
    simp [Asock.pop, Tsqueue.dequeue, Tsqueue.copyOut, straight, bind, Except.bind, pure, Except.pure]

theorem offered_empty : con.offered = none ↔ con.mOutQueue.headSize = 0 := by
  unfold Asock.offered
  split
  · rename_i empty
    simp [empty]
  · rename_i pending
    have nonempty : con.mOutQueue.mSize ≠ 0 := by
      intro empty
      exact pending (by simp [Tsqueue.headSize, empty])
    simp [Tsqueue.head, nonempty, pending]

theorem offered_bounded {data : List Byte} (offers : con.offered = some data) :
    data.length ≤ con.mOutQueue.headSize := by
  unfold Asock.offered at offers
  split at offers
  · cases offers
  · obtain ⟨position, _, same⟩ := Option.map_eq_some_iff.mp offers
    rw [← same, List.length_take]
    exact Nat.le_trans (Nat.min_le_left ..) (Nat.mod_le ..)

theorem trySend_closing : con.trySendData status workerId ids answer = .closing ↔
    status = .running ∧ (indexOfCon workerId ids con).isSome = true ∧ con.mState = .established ∧
      answer = .failed := by
  unfold Asock.trySendData
  by_cases running : status = .running
  · cases index : indexOfCon workerId ids con with
    | none => simp [running]
    | some index => cases state : con.mState <;> cases answer <;> simp [running]
  · simp [running]

theorem trySend_sent {count : Nat}
    (sends : con.trySendData status workerId ids answer = .sent count) :
    answer = .took count ∨ (answer = .again ∧ count = 0) := by
  unfold Asock.trySendData at sends
  by_cases running : status = .running
  · cases index : indexOfCon workerId ids con with
    | none => simp [running, index] at sends
    | some position => cases state : con.mState <;> cases answer <;> simp_all
  · simp [running] at sends

theorem kernelSend_took {data : List Byte} {count : Nat}
    (took : kernelSend answer data = .took count) : count ≤ data.length := by
  cases answer with
  | took offered =>
      cases took
      exact Nat.min_le_right ..
  | again => cases took
  | failed => cases took

theorem listed_id {world : World} {con : ConRef} {object : Object}
    (listed : con ∈ world.mConnections.items) (found : world.objects con = some object) :
    object.con.mConnectionId ∈ connectionIds world := by
  rw [connectionIds, List.mem_filterMap]
  exact ⟨con, listed, by rw [found]; rfl⟩

/-- Whatever the kernel answers, a visit asserts nothing that does not hold. -/
theorem failing_keeps {answers : ConRef → SendAnswer} (blocked : Blocked world) :
    Keeps world (failing status workerId answers world) (sendVisit status workerId answers) := by
  intro now con object fd listedNow found remembers foundNow listed
  have block := blocked con listed object found
  have fails : failing status workerId answers world con =
      (decide (status = .running) && decide (object.con.mMasterId = workerId) &&
        decide (object.con.mState = .established) && decide (object.con.mOutQueue.headSize ≠ 0) &&
          decide (answers con = .failed)) := by simp [failing, found]
  cases offers : object.con.offered with
  | none =>
      have empty := offered_empty.mp offers
      refine ⟨now, by simp [sendVisit, foundNow, offers], rfl, ?_, fun _ => .inl rfl⟩
      intro impossible
      simp [fails, empty] at impossible
  | some data =>
      have pending : object.con.mOutQueue.headSize ≠ 0 := by
        intro empty
        rw [offered_empty.mpr empty] at offers
        cases offers
      have closing : object.con.trySendData status workerId (connectionIds now.world)
          (kernelSend (answers con) data) = .closing ↔
            failing status workerId answers world con = true := by
        have indexed : (indexOfCon workerId (connectionIds now.world) object.con).isSome = true ↔
            object.con.mMasterId = workerId := by
          constructor
          · intro found'
            by_contra other
            simp [indexOfCon, other] at found'
          · intro owned
            obtain ⟨index, found'⟩ := index_found owned (listed_id listedNow foundNow)
            rw [found']
            rfl
        have answered : kernelSend (answers con) data = .failed ↔ answers con = .failed := by
          cases answers con <;> simp [kernelSend]
        rw [trySend_closing, indexed, answered, fails]
        simp [pending, and_assoc]
      cases result : object.con.trySendData status workerId (connectionIds now.world)
          (kernelSend (answers con) data) with
      | refused =>
          rw [result] at closing
          refine ⟨now, ?_, rfl, ?_, fun _ => .inl rfl⟩
          · simp only [sendVisit, foundNow, offers, block, result, if_false]
          · intro fatal
            cases closing.mpr fatal
      | closing =>
          refine ⟨{ now with
            world := (now.world.closeConnection fd.number).2
            sends := now.sends ++ [(con, data)] }, ?_, rfl, fun _ => rfl, ?_⟩
          · simp only [sendVisit, foundNow, offers, block, result, if_false, closeOwn, remembers,
              Except.map]
          · intro alive
            rw [closing.mp result] at alive
            cases alive
      | sent count =>
          rw [result] at closing
          have within : count ≤ object.con.mOutQueue.headSize := by
            rcases trySend_sent result with took | ⟨_, rfl⟩
            · exact Nat.le_trans (kernelSend_took took) (offered_bounded offers)
            · exact Nat.zero_le _
          obtain ⟨queue, pops⟩ := pop_total object.con count
          refine ⟨{ now with
            world := now.world.put con
              { object with con := { object.con with mOutQueue := queue } }
            sends := now.sends ++ [(con, data)] }, ?_, rfl, ?_, fun _ => .inr ⟨queue, rfl⟩⟩
          · simp only [sendVisit, foundNow, offers, block, result, if_false, if_pos within, pops,
              Except.map]
          · intro fatal
            cases closing.mpr fatal

end Visits

section Results

/-- Both loops end and filter the two lists, whoever fails or is flagged; a connection that only
the list keeps alive has its descriptor closed twice. -/
theorem downward_passes (world : World) (status : ServiceStatus) (workerId : Int)
    (answers : ConRef → SendAnswer) (fuel : Nat) (fit : Fit world) (blocked : Blocked world)
    (enough : world.mConnections.items.length < fuel) :
    (∃ after, checkForConnectionsToClose fuel world = .ok after ∧
      Filtered world (flagged world) after ∧
      (ClosedOnce world (flagged world) after.world ↔ Outlived world (flagged world))) ∧
    ∃ after, sendUnsentData fuel status workerId answers world = .ok after ∧
      Filtered world (failing status workerId answers world) after ∧
      (ClosedOnce world (failing status workerId answers world) after.world ↔
        Outlived world (failing status workerId answers world)) := by
  constructor
  · obtain ⟨after, walks, filtered, closes⟩ := pass_filters fit (flagged_keeps world) enough
    exact ⟨after, walks, filtered, closed_once fit closes⟩
  · obtain ⟨after, walks, filtered, closes⟩ := pass_filters fit (failing_keeps blocked) enough
    exact ⟨after, walks, filtered, closed_once fit closes⟩

/-- A connection that its user has written to and given up; `connects` are other users' calls. -/
def givenUp (connects : List Label) : World :=
  ((exec step (begin .running 1 acceptedWorld)
    ([.userWrite 0 [7] zeroed] ++ connects ++ [.userDestroy 0])).map fun pass => pass.world).getD
      acceptedWorld

def isLone (world : World) (con : ConRef) (fd : Descriptor) : Bool :=
  decide (world.mConnections.items = [con] ∧ world.mNewConnections.items = [] ∧
    world.mConnections.lost = false) &&
  (world.objects con).any fun object =>
    decide (object.con.mSockDesc = some fd ∧ object.con.mOutQueue.mData ≠ [])

structure Lone (world : World) (con : ConRef) (object : Object) (fd : Descriptor) : Prop where
  items : world.mConnections.items = [con]
  waiting : world.mNewConnections.items = []
  usable : world.mConnections.lost = false
  found : world.objects con = some object
  remembers : object.con.mSockDesc = some fd
  block : object.con.mOutQueue.mData ≠ []

theorem lone_tested {world : World} {con : ConRef} {fd : Descriptor}
    (tested : isLone world con fd = true) : ∃ object, Lone world con object fd := by
  rw [isLone, Bool.and_eq_true, decide_eq_true_iff, Option.any_eq_true] at tested
  obtain ⟨⟨items, waiting, usable⟩, object, found, rest⟩ := tested
  obtain ⟨remembers, block⟩ := of_decide_eq_true rest
  exact ⟨object, items, waiting, usable, found, remembers, block⟩

section Lone

variable {world : World} {con : ConRef} {object : Object} {fd : Descriptor}
  (lone : Lone world con object fd)
include lone

theorem lone_only {other : ConRef} (listed : other ∈ world.mConnections.items) : other = con := by
  rw [lone.items] at listed
  exact List.mem_singleton.mp listed

theorem lone_listed : con ∈ world.mConnections.items := by
  rw [lone.items]
  exact List.mem_singleton_self con

theorem lone_fit : Fit world := by
  constructor
  case usable => exact lone.usable
  case sized =>
    rw [lone.items]
    exact Nat.lt_of_succ_lt (show 2 < sizeBound by decide)
  case registered =>
    intro other listed
    rw [lone_only lone listed]
    exact ⟨object, fd, lone.found, lone.remembers⟩
  case apart =>
    rw [lone.items]
    exact List.pairwise_singleton ..
  case waiting =>
    rw [lone.waiting]
    exact .inl (List.nil_sublist _)

theorem lone_blocked : Blocked world := by
  intro other listed another here
  rw [lone_only lone listed, lone.found] at here
  cases here
  exact lone.block

theorem lone_put {queue : Tsqueue} (block : queue.mData ≠ []) :
    Lone (world.put con { object with con := { object.con with mOutQueue := queue } }) con
      { object with con := { object.con with mOutQueue := queue } } fd :=
  ⟨lone.items, lone.waiting, lone.usable, put_here .., lone.remembers, block⟩

end Lone

/-- What a pass has visited, offered and closed. -/
def Walk.record (walk : Walk) : List ConRef × List (ConRef × List Byte) × List Descriptor :=
  (walk.visits, walk.sends, closedDescriptors walk.world)

-- The user's `asock_destroy` leaves the list's reference; the pass closes the number 5 twice.
theorem given_up_closed_twice : Fit (givenUp []) ∧ Blocked (givenUp []) ∧
    ∃ after, checkForConnectionsToClose 2 (givenUp []) = .ok after ∧
      closedDescriptors after.world = [⟨5, 1⟩, ⟨5, 1⟩] ∧
      ¬ ClosedOnce (givenUp []) (flagged (givenUp [])) after.world := by
  obtain ⟨tested, runs, before, flag⟩ : isLone (givenUp []) 0 ⟨5, 1⟩ = true ∧
      (checkForConnectionsToClose 2 (givenUp [])).map Walk.record =
        .ok ([0], [], [⟨5, 1⟩, ⟨5, 1⟩]) ∧
      closedDescriptors (givenUp []) = [] ∧ flagged (givenUp []) 0 = true := by decide +kernel
  obtain ⟨object, alone⟩ := lone_tested tested
  obtain ⟨after, walks, recorded⟩ := mapped runs
  have closes : closedDescriptors after.world = [⟨5, 1⟩, ⟨5, 1⟩] :=
    congrArg (fun record => record.2.2) recorded
  refine ⟨lone_fit alone, lone_blocked alone, after, walks, closes, fun once => ?_⟩
  have counted := once 0 (lone_listed alone) object ⟨5, 1⟩ alone.found alone.remembers
  rw [closes, before, flag] at counted
  cases counted

theorem shared_closed_once :
    ∃ after, sendUnsentData 2 .running 1 (fun _ => .failed) (givenUp [.userConnect 0]) = .ok after ∧
      after.world.mConnections.items = [] ∧
      ClosedOnce (givenUp [.userConnect 0])
        (failing .running 1 (fun _ => .failed) (givenUp [.userConnect 0])) after.world := by
  obtain ⟨tested, outlived, nowhere⟩ : isLone (givenUp [.userConnect 0]) 0 ⟨5, 1⟩ = true ∧
      Outlived (givenUp [.userConnect 0])
        (failing .running 1 (fun _ => .failed) (givenUp [.userConnect 0])) ∧
      (givenUp [.userConnect 0]).mConnections.items.filter (fun con =>
        !failing .running 1 (fun _ => .failed) (givenUp [.userConnect 0]) con) = [] := by
    decide +kernel
  obtain ⟨object, alone⟩ := lone_tested tested
  have enough : (givenUp [.userConnect 0]).mConnections.items.length < 2 := by
    rw [alone.items]
    decide
  obtain ⟨after, walks, filtered, once⟩ := (downward_passes (givenUp [.userConnect 0]) .running 1
    (fun _ => .failed) 2 (lone_fit alone) (lone_blocked alone) enough).2
  refine ⟨after, walks, ?_, once.mpr outlived⟩
  rw [filtered.connections, nowhere]

end Results

end Libasock.DownwardPasses
