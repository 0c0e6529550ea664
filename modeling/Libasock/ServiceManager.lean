import Libasock.GuardedRuns
import Mathlib.Data.List.Nodup

/-!
The table of services by namespace, `asock_service_manager.c`, with any number of
calls of `asock_service_mgr_get_service_for_nmsp` under way. A step is one read
or write of the table by one of them, or what it does in between; no lock is
taken. The creation of a service takes its namespace from the slot when it
begins and may take as long as it likes.
-/

namespace Libasock.ServiceManager
open GuardedRuns

/-- A service by the order of creation. -/
abbrev ServiceRef := Nat

def maxAsockServices : Nat := 10

structure Manager where
  mServCounter : Int
  mServices : Nat → Option ServiceRef
  mServiceNms : Nat → Option String

/-- `asock_service_mgr_init` -/
def Manager.init : Manager := ⟨0, fun _ => none, fun _ => none⟩

/-- Where a call stands: `comparing` comes after the test of the pointer, `checking` after
`strdup`, `withdrawing` after a failed creation or start. -/
inductive Pc where
  | searching (index : Nat)
  | comparing (index : Nat)
  | fetching (index : Nat)
  | placing (index : Nat)
  | reserving (index : Nat)
  | checking (index : Nat)
  | creating (index : Nat)
  | starting (index : Nat) (service : ServiceRef)
  | installing (index : Nat) (service : ServiceRef)
  | counting (service : ServiceRef)
  | storing (service : ServiceRef) (value : Int)
  | withdrawing (index : Nat)
  | returned (service : Option ServiceRef)
  deriving DecidableEq

structure Call where
  nmsp : String
  pc : Pc
  deriving DecidableEq

structure Install where
  index : Nat
  service : ServiceRef
  deriving DecidableEq

structure System where
  manager : Manager
  /-- Every call so far, also those that have returned. -/
  calls : List Call
  /-- By the order of creation, the namespace a service was created for. -/
  namespaces : List (Option String)
  installs : List Install

def System.init : System := ⟨.init, [], [], []⟩

/-- `granted` is the answer of `strdup`, of the creation or of the start, where one is asked. -/
inductive Label where
  | enter (nmsp : String)
  | turn (place : Nat) (granted : Bool)

def Manager.setName (manager : Manager) (index : Nat) (nmsp : Option String) : Manager :=
  { manager with mServiceNms := Function.update manager.mServiceNms index nmsp }

def Manager.setService (manager : Manager) (index : Nat) (service : ServiceRef) : Manager :=
  { manager with mServices := Function.update manager.mServices index (some service) }

def System.setManager (system : System) (manager : Manager) : System :=
  { system with manager := manager }

def System.goto (system : System) (place : Nat) (call : Call) (pc : Pc) : System :=
  { system with calls := system.calls.set place { call with pc := pc } }

/-- One step of `asock_service_mgr_get_service_for_nmsp`. -/
def turn (system : System) (place : Nat) (call : Call) (granted : Bool) : Option System :=
  let manager := system.manager
  match call.pc with
  | .searching index =>
      if index < maxAsockServices then
        match manager.mServiceNms index with
        | none => some (system.goto place call (.searching (index + 1)))
        | some _ => some (system.goto place call (.comparing index))
      else some (system.goto place call (.placing 0))
  | .comparing index =>
      match manager.mServiceNms index with
      | none => none
      | some name =>
          if name = call.nmsp then some (system.goto place call (.fetching index))
          else some (system.goto place call (.searching (index + 1)))
  | .fetching index => some (system.goto place call (.returned (manager.mServices index)))
  | .placing index =>
      if index < maxAsockServices then
        match manager.mServices index with
        | none => some (system.goto place call (.reserving index))
        | some _ => some (system.goto place call (.placing (index + 1)))
      else some (system.goto place call (.returned none))
  | .reserving index =>
      let name := if granted then some call.nmsp else none
      some ((system.setManager (manager.setName index name)).goto place call (.checking index))
  | .checking index =>
      match manager.mServiceNms index with
      | none => some (system.goto place call (.returned none))
      | some _ => some (system.goto place call (.creating index))
  | .creating index =>
      if granted then
        let created : System :=
          { system with namespaces := system.namespaces ++ [manager.mServiceNms index] }
        some (created.goto place call (.starting index system.namespaces.length))
      else some (system.goto place call (.withdrawing index))
  | .starting index service =>
      if granted then some (system.goto place call (.installing index service))
      else some (system.goto place call (.withdrawing index))
  | .installing index service =>
      let installed : System := { system with
        manager := manager.setService index service
        installs := system.installs ++ [⟨index, service⟩] }
      some (installed.goto place call (.counting service))
  | .counting service =>
      some (system.goto place call (.storing service (manager.mServCounter + 1)))
  | .storing service value =>
      let counted := system.setManager { manager with mServCounter := value }
      some (counted.goto place call (.returned (some service)))
  | .withdrawing index =>
      some ((system.setManager (manager.setName index none)).goto place call (.returned none))
  | .returned _ => none

def step (system : System) : Label → Option System
  | .enter nmsp => some { system with calls := system.calls ++ [⟨nmsp, .searching 0⟩] }
  | .turn place granted => (system.calls[place]?).bind fun call => turn system place call granted

/-- Memory is there and every creation and start succeeds. -/
def Succeeding (_ : System) : Label → Prop
  | .enter _ => True
  | .turn _ granted => granted = true

/-- The slot a call has written its name into and not yet its service. -/
def reserved : Pc → Option Nat
  | .checking index | .creating index | .starting index _ | .installing index _ => some index
  | _ => none

/-- Between the write of the service and the write of the counter. -/
def uncounted : Pc → Bool
  | .counting _ | .storing .. => true
  | _ => false

def storingPc : Pc → Bool
  | .storing .. => true
  | _ => false

def occupied (manager : Manager) : Nat :=
  (List.range maxAsockServices).countP fun index => (manager.mServices index).isSome

/-- One service for each namespace asked for. -/
structure OneEach (system : System) : Prop where
  same : ∀ left ∈ system.calls, ∀ right ∈ system.calls, ∀ first second,
    left.pc = .returned first → right.pc = .returned second → left.nmsp = right.nmsp →
      first = second ∧ first ≠ none
  apart : ∀ left ∈ system.calls, ∀ right ∈ system.calls, ∀ first second,
    left.pc = .returned first → right.pc = .returned second → left.nmsp ≠ right.nmsp →
      first ≠ second
  kept : ∀ install ∈ system.installs,
    system.manager.mServices install.index = some install.service
  counted : (∀ call ∈ system.calls, uncounted call.pc = false) →
    system.manager.mServCounter = occupied system.manager

/-- The step of a call does not run into another call's: it reads the service of a slot that
nobody is about to fill, writes its name where there is none and no slot has that name, reads the
counter while nobody is about to write it, and there is a free slot to be found. -/
def Clear (system : System) (call : Call) : Prop :=
  match call.pc with
  | .fetching index => ∀ other ∈ system.calls, reserved other.pc ≠ some index
  | .reserving index => system.manager.mServiceNms index = none ∧
      system.manager.mServices index = none ∧
      ∀ other < maxAsockServices, system.manager.mServiceNms other ≠ some call.nmsp
  | .counting _ => ∀ other ∈ system.calls, storingPc other.pc = false
  | .placing index => index < maxAsockServices
  | _ => True

def Separate (system : System) : Label → Prop
  | .enter _ => True
  | .turn place granted => granted = true ∧ ∀ call ∈ system.calls[place]?, Clear system call

instance (system : System) (label : Label) : Decidable (Succeeding system label) :=
  match label with
  | .enter _ => inferInstanceAs (Decidable True)
  | .turn _ granted => inferInstanceAs (Decidable (granted = true))

instance (system : System) : (call : Call) → Decidable (Clear system call)
  | ⟨_, .fetching index⟩ =>
      inferInstanceAs (Decidable (∀ other ∈ system.calls, reserved other.pc ≠ some index))
  | ⟨nmsp, .reserving index⟩ => inferInstanceAs (Decidable
      (system.manager.mServiceNms index = none ∧ system.manager.mServices index = none ∧
        ∀ other < maxAsockServices, system.manager.mServiceNms other ≠ some nmsp))
  | ⟨_, .counting _⟩ =>
      inferInstanceAs (Decidable (∀ other ∈ system.calls, storingPc other.pc = false))
  | ⟨_, .placing index⟩ => inferInstanceAs (Decidable (index < maxAsockServices))
  | ⟨_, .searching _⟩ | ⟨_, .comparing _⟩ | ⟨_, .checking _⟩ | ⟨_, .creating _⟩
  | ⟨_, .starting _ _⟩ | ⟨_, .installing _ _⟩ | ⟨_, .storing _ _⟩ | ⟨_, .withdrawing _⟩
  | ⟨_, .returned _⟩ => inferInstanceAs (Decidable True)

instance (system : System) (label : Label) : Decidable (Separate system label) :=
  match label with
  | .enter _ => inferInstanceAs (Decidable True)
  | .turn place granted => inferInstanceAs (Decidable
      (granted = true ∧ ∀ call ∈ system.calls[place]?, Clear system call))

end Libasock.ServiceManager
