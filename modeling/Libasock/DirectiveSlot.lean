import Libasock.GuardedRuns
import Libasock.ReturnCodes

/-!
The rendezvous of `asock_directive.c`: one slot for a type, its arguments and a
result, any number of calls of `asock_send_directive`, and the worker. A step is
one critical section of `m_direct_mutex`; a wait gives the mutex up, a signal
wakes one waiter if there is one, and every waiter may wake by itself. The calls
are numbered in the order in which they fill the slot; the number is a ghost.
-/

namespace Libasock.DirectiveSlot
open GuardedRuns ReturnCodes

inductive Role where
  | server | service
  deriving DecidableEq

/-- The two loops of a worker. -/
inductive Phase where
  | configuring | running
  deriving DecidableEq

abbrev Pointer := Nat

structure Arguments where
  mArg1 : Pointer
  mArg2 : Pointer
  mArg3 : Pointer
  mArg4 : Pointer
  deriving DecidableEq

structure Request where
  type : DirectiveType
  args : Arguments
  deriving DecidableEq

structure Directive where
  mDirectType : DirectiveType
  mDirectResult : AsockReturnCode
  mArgs : Arguments
  deriving DecidableEq

def asockInitDirective : Directive := ⟨.directNone, asockSuccess, ⟨0, 0, 0, 0⟩⟩

/-- `executing` keeps the type that was read and the number of the call that filled the slot;
`answering` the result to be set and the loop to go on with. -/
inductive WorkerPc where
  | checking
  | asleep
  | fetching (phase : Phase)
  | executing (phase : Phase) (type : DirectiveType) (ticket : Nat)
  | answering (result : AsockReturnCode) (next : Option Phase)
  | exited
  | crashed
  deriving DecidableEq

/-- A call inside its wait loop. -/
structure Call where
  ticket : Nat
  asleep : Bool
  deriving DecidableEq

structure Execution where
  ticket : Nat
  type : DirectiveType
  args : Option Arguments
  result : AsockReturnCode
  deriving DecidableEq

structure Rendezvous where
  role : Role
  direct : Directive
  worker : WorkerPc
  status : ServiceStatus
  calls : List Call
  sent : List Request
  executed : List Execution
  returned : List (Nat × AsockReturnCode)

inductive Label where
  | send (request : Request)
  | wake (ticket : Nat)
  | resume (ticket : Nat)
  | wakeWorker
  | check
  | fetch
  | process (outcome : Bool)
  | answer (woken : Option Nat)

section Calls

def setAsleep (calls : List Call) (ticket : Nat) (asleep : Bool) : List Call :=
  calls.map fun call => if call.ticket = ticket then { call with asleep := asleep } else call

/-- `asock_send_directive` up to its first wait. -/
def send (slot : Rendezvous) (request : Request) : Rendezvous :=
  { slot with
    direct := ⟨request.type, asockUndefinedCode, request.args⟩
    worker := if slot.worker = .asleep then .checking else slot.worker
    calls := slot.calls ++ [⟨slot.sent.length, true⟩]
    sent := slot.sent ++ [request] }

/-- A woken call has the mutex again: it waits once more or returns. -/
def resume (slot : Rendezvous) (ticket : Nat) : Rendezvous :=
  if slot.direct.mDirectResult = asockUndefinedCode then
    { slot with calls := setAsleep slot.calls ticket true }
  else
    { slot with
      direct := { slot.direct with
        mDirectResult := asockUndefinedCode, mDirectType := .directNone }
      calls := slot.calls.filter fun call => call.ticket ≠ ticket
      returned := slot.returned ++ [(ticket, slot.direct.mDirectResult)] }

end Calls

section Worker

/-- What a worker does with a type: nothing, the assertion of the default branch, or an
answer, with the status it sets and whether it reads the arguments. -/
inductive Verdict where
  | passes
  | undefinedType
  | answers (status : Option ServiceStatus) (reads : Bool) (result : AsockReturnCode)
      (next : Option Phase)

/-- The switches of the two thread loops; `outcome` says whether the work succeeds. -/
def verdict (role : Role) (phase : Phase) (type : DirectiveType) (outcome : Bool) : Verdict :=
  let result := if outcome then asockSuccess else asockFailure
  match role, phase, type with
  | .server, .configuring, .directStart =>
      if outcome then .answers (some .running) false asockSuccess (some .running)
      else .answers (some .aborted) false asockFailure none
  | .server, .configuring, .directStop => .answers (some .aborted) false asockSuccess none
  | .server, .configuring, .directBind => .answers none true result (some .configuring)
  | .server, .running, .directNone => .passes
  | .server, .running, .directStop => .answers none false asockSuccess none
  | .server, .running, .directStart => .answers none false asockErrBadstate (some .running)
  | .server, .running, .directBind => .answers none false asockErrBadstate (some .running)
  | .server, .running, .directSetns => .answers none false asockErrBadstate (some .running)
  | .service, .configuring, .directStart =>
      .answers (some .running) false asockSuccess (some .running)
  | .service, .configuring, .directStop => .answers (some .aborted) false asockSuccess none
  | .service, .configuring, .directCreateAsock => .answers none true result (some .configuring)
  | .service, .configuring, .directSetns => .passes
  | .service, .running, .directNone => .passes
  | .service, .running, .directStop => .answers none false asockSuccess none
  | .service, .running, .directCreateAsock => .answers none true result (some .running)
  | .service, .running, .directStart => .answers none false asockErrBadstate (some .running)
  | .service, .running, .directSetns => .answers none false asockErrBadstate (some .running)
  | _, _, _ => .undefinedType

/-- Where a turn of a loop begins: the main loop polls, the configuration loop waits. -/
def Phase.entry : Phase → WorkerPc
  | .configuring => .checking
  | .running => .fetching .running

def process (slot : Rendezvous) (phase : Phase) (type : DirectiveType) (ticket : Nat)
    (outcome : Bool) : Rendezvous :=
  match verdict slot.role phase type outcome with
  | .passes => { slot with worker := phase.entry }
  | .undefinedType => { slot with worker := .crashed }
  | .answers status reads result next =>
      { slot with
        worker := .answering result next
        status := status.getD slot.status
        executed := slot.executed ++
          [⟨ticket, type, if reads then some slot.direct.mArgs else none, result⟩] }

/-- The signal reaches a waiter if there is one. -/
def chosen (slot : Rendezvous) : Option Nat → Bool
  | some ticket => ⟨ticket, true⟩ ∈ slot.calls
  | none => slot.calls.all fun call => !call.asleep

/-- `asock_set_directive_result`, with the call its signal wakes. -/
def answer (slot : Rendezvous) (result : AsockReturnCode) (next : Option Phase)
    (woken : Option Nat) : Rendezvous :=
  { slot with
    direct := { slot.direct with mDirectResult := result, mDirectType := .directNone }
    worker := match next with
      | some phase => phase.entry
      | none => .exited
    calls := match woken with
      | some ticket => setAsleep slot.calls ticket false
      | none => slot.calls }

end Worker

def step (slot : Rendezvous) : Label → Option Rendezvous
  | .send request => some (send slot request)
  | .wake ticket =>
      if ⟨ticket, true⟩ ∈ slot.calls then
        some { slot with calls := setAsleep slot.calls ticket false }
      else none
  | .resume ticket => if ⟨ticket, false⟩ ∈ slot.calls then some (resume slot ticket) else none
  | .wakeWorker =>
      match slot.worker with
      | .asleep => some { slot with worker := .checking }
      | _ => none
  | .check =>
      match slot.worker with
      | .checking =>
          if slot.direct.mDirectType = .directNone then some { slot with worker := .asleep }
          else some { slot with worker := .fetching .configuring }
      | _ => none
  | .fetch =>
      match slot.worker with
      | .fetching phase =>
          some { slot with
            worker := .executing phase slot.direct.mDirectType (slot.sent.length - 1) }
      | _ => none
  | .process outcome =>
      match slot.worker with
      | .executing phase type ticket => some (process slot phase type ticket outcome)
      | _ => none
  | .answer woken =>
      match slot.worker with
      | .answering result next =>
          if chosen slot woken then some (answer slot result next woken) else none
      | _ => none

/-- A slot whose worker has just entered its configuration loop. -/
def Rendezvous.configured (role : Role) : Rendezvous where
  role := role
  direct := asockInitDirective
  worker := .checking
  status := .configuration
  calls := []
  sent := []
  executed := []
  returned := []

end Libasock.DirectiveSlot
