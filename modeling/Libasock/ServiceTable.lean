import Libasock.ServiceManager

/-!
The table of services as one thread sees it: a call of
`asock_service_mgr_get_service_for_nmsp` from its entry to its return, and the
two functions of `asock_impl.c` that make such calls. `call_alone` derives the
whole call from the steps of `ServiceManager`.
-/

namespace Libasock.ServiceTable
open GuardedRuns ServiceManager

section Calls

/-- What `strdup`, `asock_service_create_ns` and `asock_service_start` answer. -/
structure Answers where
  strdup : Bool
  create : Option ServiceRef
  start : Bool

/-- The first loop: the slot with an equal name. -/
def namedSlot (manager : Manager) (nmsp : String) : Option Nat :=
  (List.range maxAsockServices).find? fun index => manager.mServiceNms index == some nmsp

/-- The test of the second loop: a slot without a service. -/
def freeSlot (manager : Manager) : Option Nat :=
  (List.range maxAsockServices).find? fun index => manager.mServices index == none

/-- The body of the second loop for the slot it stops at. -/
def fillSlot (manager : Manager) (index : Nat) (nmsp : String) (answers : Answers) :
    Option ServiceRef × Manager :=
  if answers.strdup = false then (none, manager.setName index none)
  else
    let named := manager.setName index (some nmsp)
    match answers.create with
    | none => (none, named.setName index none)
    | some service =>
        if answers.start = false then (none, named.setName index none)
        else (some service,
          { named.setService index service with mServCounter := named.mServCounter + 1 })

def getServiceForNmsp (manager : Manager) (nmsp : String) (answers : Answers) :
    Option ServiceRef × Manager :=
  match namedSlot manager nmsp with
  | some index => (manager.mServices index, manager)
  | none =>
      match freeSlot manager with
      | none => (none, manager)
      | some index => fillSlot manager index nmsp answers

end Calls

section Clients

/-- A connection of `asock_create_ns`, with the service that created it. -/
structure Connection where
  mNetNs : String
  creator : ServiceRef

structure Client where
  manager : Manager
  cons : List Connection

def Client.init : Client := ⟨.init, []⟩

/-- The calls of the thread; `memory` answers the `strdup` of `asock_create_ns`, `object` the
creation of the connection. -/
inductive Label where
  | get (nmsp : String) (answers : Answers)
  | createNs (netNs : String) (memory : Bool) (answers : Answers) (object : Bool)
  | connect (place : Nat) (answers : Answers)

def asockCreateNs (client : Client) (netNs : String) (memory : Bool) (answers : Answers)
    (object : Bool) : Client :=
  if memory = false then client
  else
    let result := getServiceForNmsp client.manager netNs answers
    match result.1 with
    | none => { client with manager := result.2 }
    | some service =>
        if object then ⟨result.2, client.cons ++ [⟨netNs, service⟩]⟩
        else { client with manager := result.2 }

/-- The service `asock_connect` hands the connection to, and the table after its search. -/
def asockConnect (client : Client) (con : Connection) (answers : Answers) :
    Option ServiceRef × Client :=
  let result := getServiceForNmsp client.manager con.mNetNs answers
  (result.1, { client with manager := result.2 })

def step (client : Client) : Label → Option Client
  | .get nmsp answers =>
      some { client with manager := (getServiceForNmsp client.manager nmsp answers).2 }
  | .createNs netNs memory answers object =>
      some (asockCreateNs client netNs memory answers object)
  | .connect place answers =>
      (client.cons[place]?).map fun con => (asockConnect client con answers).2

end Clients

section Table

/-- The set slots are the first ones, as many as the counter says, with names of their own. -/
structure Ordered (manager : Manager) : Prop where
  paired : ∀ index < maxAsockServices,
    (manager.mServiceNms index).isSome = (manager.mServices index).isSome
  front : ∃ count ≤ maxAsockServices, manager.mServCounter = count ∧
    ∀ index < maxAsockServices, (manager.mServices index).isSome = decide (index < count)
  apart : ∀ left < maxAsockServices, ∀ right < maxAsockServices, ∀ nmsp,
    manager.mServiceNms left = some nmsp → manager.mServiceNms right = some nmsp → left = right

/-- The namespace has a slot with the service. -/
def Has (manager : Manager) (nmsp : String) (service : ServiceRef) : Prop :=
  ∃ index < maxAsockServices, manager.mServiceNms index = some nmsp ∧
    manager.mServices index = some service

variable {manager : Manager} {nmsp : String} {answers : Answers}

theorem init_ordered : Ordered .init := by
  constructor
  case paired => exact fun _ _ => rfl
  case front => exact ⟨0, Nat.zero_le _, rfl, fun _ _ => rfl⟩
  case apart =>
    intro _ _ _ _ _ impossible
    cases impossible

theorem named_some {index : Nat} (found : namedSlot manager nmsp = some index) :
    index < maxAsockServices ∧ manager.mServiceNms index = some nmsp := by
  have inside := List.mem_of_find?_eq_some found
  have named := List.find?_some found
  exact ⟨List.mem_range.mp inside, by simpa using named⟩

theorem named_none : namedSlot manager nmsp = none ↔
    ∀ index < maxAsockServices, manager.mServiceNms index ≠ some nmsp := by
  simp [namedSlot, List.find?_eq_none]

theorem free_some {index : Nat} (found : freeSlot manager = some index) :
    index < maxAsockServices ∧ manager.mServices index = none ∧
      ∀ earlier < index, (manager.mServices earlier).isSome = true := by
  obtain ⟨empty, inside, earlier⟩ := List.find?_range_eq_some.mp found
  exact ⟨List.mem_range.mp inside, by simpa using empty, by simpa using earlier⟩

/-- In an ordered table the first free slot is the one after the prefix. -/
theorem free_front (ordered : Ordered manager) {index : Nat}
    (found : freeSlot manager = some index) :
    manager.mServCounter = index ∧ manager.mServiceNms index = none := by
  obtain ⟨inside, empty, earlier⟩ := free_some found
  obtain ⟨count, _, counted, front⟩ := ordered.front
  have after := front index inside
  have named := ordered.paired index inside
  rw [empty] at after named
  have last : count = index := by
    by_contra different
    have below : count < index := by
      have notBelow : ¬ index < count := by simpa using after
      omega
    have filled := front count (by omega)
    rw [earlier count below] at filled
    simp at filled
  exact ⟨by rw [counted, last], by simpa using named⟩

theorem name_restored {index : Nat} (absent : manager.mServiceNms index = none) :
    manager.setName index none = manager := by
  rw [Manager.setName, ← absent, Function.update_eq_self]

theorem name_withdrawn {index : Nat} (absent : manager.mServiceNms index = none) :
    (manager.setName index (some nmsp)).setName index none = manager := by
  simp only [Manager.setName, Function.update_idem]
  exact name_restored absent

/-- The table with one more service, in the slot `index`. -/
def filled (manager : Manager) (index : Nat) (nmsp : String) (service : ServiceRef) : Manager :=
  { (manager.setName index (some nmsp)).setService index service with
    mServCounter := manager.mServCounter + 1 }

theorem fill_cases {index : Nat} (absent : manager.mServiceNms index = none) (nmsp : String)
    (answers : Answers) :
    fillSlot manager index nmsp answers = (none, manager) ∨
      ∃ service, fillSlot manager index nmsp answers =
        (some service, filled manager index nmsp service) := by
  obtain ⟨strdup, create, start⟩ := answers
  cases strdup with
  | false => exact .inl (congrArg (Prod.mk none) (name_restored absent))
  | true =>
      cases create with
      | none => exact .inl (congrArg (Prod.mk none) (name_withdrawn absent))
      | some service =>
          cases start with
          | false => exact .inl (congrArg (Prod.mk none) (name_withdrawn absent))
          | true => exact .inr ⟨service, rfl⟩

/-- A call answers from the table, leaves it as it is, or fills the slot after the prefix. -/
theorem get_cases (ordered : Ordered manager) (nmsp : String) (answers : Answers) :
    (∃ service, Has manager nmsp service ∧
      getServiceForNmsp manager nmsp answers = (some service, manager)) ∨
    getServiceForNmsp manager nmsp answers = (none, manager) ∨
    ∃ index service, namedSlot manager nmsp = none ∧ freeSlot manager = some index ∧
      getServiceForNmsp manager nmsp answers = (some service, filled manager index nmsp service) := by
  cases named : namedSlot manager nmsp with
  | some index =>
      obtain ⟨inside, name⟩ := named_some named
      have both := ordered.paired index inside
      rw [name, Option.isSome_some, eq_comm, Option.isSome_iff_exists] at both
      obtain ⟨service, held⟩ := both
      exact .inl ⟨service, ⟨index, inside, name, held⟩, by
        simp only [getServiceForNmsp, named, held]⟩
  | none =>
      cases free : freeSlot manager with
      | none => exact .inr (.inl (by simp only [getServiceForNmsp, named, free]))
      | some index =>
          have fills : getServiceForNmsp manager nmsp answers =
              fillSlot manager index nmsp answers := by
            simp only [getServiceForNmsp, named, free]
          rcases fill_cases (free_front ordered free).2 nmsp answers with
            same | ⟨service, stored⟩
          · exact .inr (.inl (fills.trans same))
          · exact .inr (.inr ⟨index, service, rfl, rfl, fills.trans stored⟩)

/-- Where a namespace has a service, a call returns it. -/
theorem get_has {service : ServiceRef} (ordered : Ordered manager)
    (has : Has manager nmsp service) :
    getServiceForNmsp manager nmsp answers = (some service, manager) := by
  obtain ⟨index, inside, name, held⟩ := has
  cases named : namedSlot manager nmsp with
  | none => exact absurd name (named_none.mp named index inside)
  | some other =>
      obtain ⟨otherInside, otherName⟩ := named_some named
      have same := ordered.apart other otherInside index inside nmsp otherName name
      simp only [getServiceForNmsp, named, same, held]

theorem filled_ordered {index : Nat} {service : ServiceRef} (ordered : Ordered manager)
    (unnamed : namedSlot manager nmsp = none) (free : freeSlot manager = some index) :
    Ordered (filled manager index nmsp service) := by
  obtain ⟨inside, _, earlier⟩ := free_some free
  obtain ⟨counted, _⟩ := free_front ordered free
  obtain ⟨count, _, counts, front⟩ := ordered.front
  have last : count = index := by
    rw [counts] at counted
    exact_mod_cast counted
  have others : ∀ other, other ≠ index →
      (filled manager index nmsp service).mServices other = manager.mServices other ∧
        (filled manager index nmsp service).mServiceNms other = manager.mServiceNms other :=
    fun other different =>
      ⟨Function.update_of_ne different .., Function.update_of_ne different ..⟩
  have here : (filled manager index nmsp service).mServices index = some service ∧
      (filled manager index nmsp service).mServiceNms index = some nmsp :=
    ⟨Function.update_self .., Function.update_self ..⟩
  have fresh := named_none.mp unnamed
  constructor
  case paired =>
    intro other below
    by_cases same : other = index
    · subst same
      rw [here.1, here.2]
      rfl
    · rw [(others other same).1, (others other same).2]
      exact ordered.paired other below
  case front =>
    refine ⟨index + 1, inside, by simp [filled, counted], fun other below => ?_⟩
    by_cases same : other = index
    · subst same
      rw [here.1]
      simp
    · rw [(others other same).1, front other below, last]
      have shifts : other < index ↔ other < index + 1 := by omega
      simp only [shifts]
  case apart =>
    intro left leftInside right rightInside name leftNamed rightNamed
    by_cases leftHere : left = index
    · by_cases rightHere : right = index
      · rw [leftHere, rightHere]
      · rw [leftHere, here.2, Option.some.injEq] at leftNamed
        rw [(others right rightHere).2, ← leftNamed] at rightNamed
        exact absurd rightNamed (fresh right rightInside)
    · rw [(others left leftHere).2] at leftNamed
      by_cases rightHere : right = index
      · rw [rightHere, here.2, Option.some.injEq] at rightNamed
        rw [← rightNamed] at leftNamed
        exact absurd leftNamed (fresh left leftInside)
      · rw [(others right rightHere).2] at rightNamed
        exact ordered.apart left leftInside right rightInside name leftNamed rightNamed

theorem filled_has {index : Nat} {service : ServiceRef} (inside : index < maxAsockServices) :
    Has (filled manager index nmsp service) nmsp service :=
  ⟨index, inside, Function.update_self .., Function.update_self ..⟩

/-- What is in the table stays there. -/
theorem has_filled {index : Nat} {name : String} {service other : ServiceRef}
    (free : freeSlot manager = some index) (has : Has manager name service) :
    Has (filled manager index nmsp other) name service := by
  obtain ⟨place, inside, named, held⟩ := has
  have different : place ≠ index := by
    rintro rfl
    rw [(free_some free).2.1] at held
    cases held
  exact ⟨place, inside, by simp [filled, Manager.setService, Manager.setName, different, named],
    by simp [filled, Manager.setService, Manager.setName, different, held]⟩

end Table

section Alone

variable {system : System} {place : Nat} {nmsp : String}

/-- The system with one call at `pc`. -/
def stand (system : System) (place : Nat) (nmsp : String) (pc : Pc) : System :=
  { system with calls := system.calls.set place ⟨nmsp, pc⟩ }

@[simp] theorem stand_manager (pc : Pc) : (stand system place nmsp pc).manager = system.manager :=
  rfl

@[simp] theorem goto_stand (pc next : Pc) :
    (stand system place nmsp pc).goto place ⟨nmsp, pc⟩ next = stand system place nmsp next := by
  simp [System.goto, stand]

theorem stand_turn {pc : Pc} {next : System} (granted : Bool) (inside : place < system.calls.length)
    (turned : turn (stand system place nmsp pc) place ⟨nmsp, pc⟩ granted = some next) :
    Run ServiceManager.step (stand system place nmsp pc) next := by
  have here : (stand system place nmsp pc).calls[place]? = some ⟨nmsp, pc⟩ := by
    simp [stand, inside]
  refine .next (.turn place granted) .refl trivial ?_
  rw [ServiceManager.step, here]
  exact turned

variable (inside : place < system.calls.length)
include inside

theorem search_past {index : Nat} (below : index < maxAsockServices)
    (other : system.manager.mServiceNms index ≠ some nmsp) :
    Run ServiceManager.step (stand system place nmsp (.searching index))
      (stand system place nmsp (.searching (index + 1))) := by
  cases named : system.manager.mServiceNms index with
  | none => exact stand_turn true inside (by simp [turn, below, named])
  | some name =>
      have different : name ≠ nmsp := by
        rintro rfl
        exact other named
      have compares : Run ServiceManager.step (stand system place nmsp (.searching index))
          (stand system place nmsp (.comparing index)) :=
        stand_turn true inside (by simp [turn, below, named])
      exact compares.trans (stand_turn true inside (by simp [turn, named, different]))

theorem search_hit {index : Nat} (below : index < maxAsockServices)
    (named : system.manager.mServiceNms index = some nmsp) :
    Run ServiceManager.step (stand system place nmsp (.searching index))
      (stand system place nmsp (.returned (system.manager.mServices index))) := by
  have compares : Run ServiceManager.step (stand system place nmsp (.searching index))
      (stand system place nmsp (.comparing index)) :=
    stand_turn true inside (by simp [turn, below, named])
  have fetches : Run ServiceManager.step (stand system place nmsp (.comparing index))
      (stand system place nmsp (.fetching index)) :=
    stand_turn true inside (by simp [turn, named])
  exact (compares.trans fetches).trans (stand_turn true inside (by simp [turn]))

/-- The first loop passes the slots with other names. -/
theorem search_run {count : Nat} (bounded : count ≤ maxAsockServices)
    (others : ∀ index < count, system.manager.mServiceNms index ≠ some nmsp) :
    Run ServiceManager.step (stand system place nmsp (.searching 0))
      (stand system place nmsp (.searching count)) := by
  induction count with
  | zero => exact .refl
  | succ count ih =>
      exact (ih (by omega) fun index below => others index (by omega)).trans
        (search_past inside (by omega) (others count (by omega)))

/-- The second loop passes the slots with a service. -/
theorem place_run {count : Nat} (bounded : count ≤ maxAsockServices)
    (taken : ∀ index < count, (system.manager.mServices index).isSome = true) :
    Run ServiceManager.step (stand system place nmsp (.placing 0))
      (stand system place nmsp (.placing count)) := by
  induction count with
  | zero => exact .refl
  | succ count ih =>
      obtain ⟨service, held⟩ := Option.isSome_iff_exists.mp (taken count (by omega))
      have below : count < maxAsockServices := by omega
      exact (ih (by omega) fun index below => taken index (by omega)).trans
        (stand_turn true inside (by simp [turn, below, held]))

/-- The call has returned and left this table, whatever else has been counted on the way. -/
def Left (system after : System) (place : Nat) (nmsp : String)
    (result : Option ServiceRef × Manager) : Prop :=
  after.manager = result.2 ∧ after.calls = system.calls.set place ⟨nmsp, .returned result.1⟩

theorem withdraw_run (other : System) (index : Nat) (calls : other.calls = system.calls) :
    ∃ after, Run ServiceManager.step (stand other place nmsp (.withdrawing index)) after ∧
      Left system after place nmsp (none, other.manager.setName index none) := by
  refine ⟨stand (other.setManager (other.manager.setName index none)) place nmsp (.returned none),
    stand_turn true (calls ▸ inside) ?_, rfl, ?_⟩
  · simp [turn, System.goto, System.setManager, stand]
  · simp [stand, System.setManager, calls]

theorem fill_run {answers : Answers} (index : Nat)
    (create : ∀ service, answers.create = some service → service = system.namespaces.length) :
    ∃ after, Run ServiceManager.step (stand system place nmsp (.reserving index)) after ∧
      Left system after place nmsp (fillSlot system.manager index nmsp answers) := by
  obtain ⟨strdup, create?, start⟩ := answers
  cases strdup with
  | false =>
      let unnamed := system.setManager (system.manager.setName index none)
      have reserves : Run ServiceManager.step (stand system place nmsp (.reserving index))
          (stand unnamed place nmsp (.checking index)) :=
        stand_turn false inside (by simp [turn, System.goto, System.setManager, stand, unnamed])
      have checks : Run ServiceManager.step (stand unnamed place nmsp (.checking index))
          (stand unnamed place nmsp (.returned none)) :=
        stand_turn true inside (by
          simp [turn, unnamed, System.setManager, Manager.setName])
      exact ⟨_, reserves.trans checks, rfl, rfl⟩
  | true =>
      let named := system.setManager (system.manager.setName index (some nmsp))
      have reserves : Run ServiceManager.step (stand system place nmsp (.reserving index))
          (stand named place nmsp (.checking index)) :=
        stand_turn true inside (by simp [turn, System.goto, System.setManager, stand, named])
      have checks : Run ServiceManager.step (stand named place nmsp (.checking index))
          (stand named place nmsp (.creating index)) :=
        stand_turn true inside (by
          simp [turn, named, System.setManager, Manager.setName])
      cases create? with
      | none =>
          have fails : Run ServiceManager.step (stand named place nmsp (.creating index))
              (stand named place nmsp (.withdrawing index)) :=
            stand_turn false inside (by simp [turn])
          obtain ⟨after, withdraws, left⟩ := withdraw_run inside named index rfl
          exact ⟨after, ((reserves.trans checks).trans fails).trans withdraws, left⟩
      | some service =>
          have last : service = system.namespaces.length := create service rfl
          let made := { named with
            namespaces := named.namespaces ++ [named.manager.mServiceNms index] }
          have creates : Run ServiceManager.step (stand named place nmsp (.creating index))
              (stand made place nmsp (.starting index service)) :=
            stand_turn true inside (by
              simp [turn, System.goto, stand, made, named, System.setManager, last])
          cases start with
          | false =>
              have fails : Run ServiceManager.step (stand made place nmsp (.starting index service))
                  (stand made place nmsp (.withdrawing index)) :=
                stand_turn false inside (by simp [turn])
              obtain ⟨after, withdraws, left⟩ := withdraw_run inside made index rfl
              exact ⟨after, (((reserves.trans checks).trans creates).trans fails).trans withdraws,
                left⟩
          | true =>
              let installed : System := { made with
                manager := made.manager.setService index service
                installs := made.installs ++ [⟨index, service⟩] }
              let counted := installed.setManager { installed.manager with
                mServCounter := installed.manager.mServCounter + 1 }
              have starts : Run ServiceManager.step
                  (stand made place nmsp (.starting index service))
                  (stand made place nmsp (.installing index service)) :=
                stand_turn true inside (by simp [turn])
              have installs : Run ServiceManager.step
                  (stand made place nmsp (.installing index service))
                  (stand installed place nmsp (.counting service)) :=
                stand_turn true inside (by simp [turn, System.goto, stand, installed])
              have reads : Run ServiceManager.step
                  (stand installed place nmsp (.counting service))
                  (stand installed place nmsp
                    (.storing service (installed.manager.mServCounter + 1))) :=
                stand_turn true inside (by simp [turn])
              have stores : Run ServiceManager.step
                  (stand installed place nmsp
                    (.storing service (installed.manager.mServCounter + 1)))
                  (stand counted place nmsp (.returned (some service))) :=
                stand_turn true inside (by
                  simp [turn, System.goto, System.setManager, stand, counted])
              exact ⟨_, (((((reserves.trans checks).trans creates).trans starts).trans
                installs).trans reads).trans stores, rfl, rfl⟩

/-- A call that runs alone does in many steps what the function does. -/
theorem call_alone {answers : Answers}
    (create : ∀ service, answers.create = some service → service = system.namespaces.length) :
    ∃ after, Run ServiceManager.step (stand system place nmsp (.searching 0)) after ∧
      Left system after place nmsp (getServiceForNmsp system.manager nmsp answers) := by
  cases named : namedSlot system.manager nmsp with
  | some index =>
      obtain ⟨here, below, earlier⟩ := List.find?_range_eq_some.mp named
      have searches := search_run inside (Nat.le_of_lt (List.mem_range.mp below)) fun other before => by
        simpa using earlier other before
      refine ⟨_, searches.trans (search_hit inside (List.mem_range.mp below) (by simpa using here)),
        ?_, ?_⟩
      · simp only [getServiceForNmsp, named, stand_manager]
      · simp only [getServiceForNmsp, named, stand]
  | none =>
      have searches := search_run inside (Nat.le_refl maxAsockServices) (named_none.mp named)
      have turns : Run ServiceManager.step (stand system place nmsp (.searching maxAsockServices))
          (stand system place nmsp (.placing 0)) := stand_turn true inside (by simp [turn])
      have begins := searches.trans turns
      cases free : freeSlot system.manager with
      | none =>
          have taken : ∀ index < maxAsockServices, (system.manager.mServices index).isSome = true := by
            simpa [freeSlot, List.find?_eq_none, Option.isSome_iff_ne_none] using free
          have full : Run ServiceManager.step (stand system place nmsp (.placing maxAsockServices))
              (stand system place nmsp (.returned none)) := stand_turn true inside (by simp [turn])
          refine ⟨_, (begins.trans (place_run inside (Nat.le_refl _) taken)).trans full, ?_, ?_⟩
          · simp only [getServiceForNmsp, named, free, stand_manager]
          · simp only [getServiceForNmsp, named, free, stand]
      | some index =>
          obtain ⟨below, empty, earlier⟩ := free_some free
          have places : Run ServiceManager.step (stand system place nmsp (.placing 0))
              (stand system place nmsp (.placing index)) :=
            place_run inside (Nat.le_of_lt below) earlier
          have reserves : Run ServiceManager.step (stand system place nmsp (.placing index))
              (stand system place nmsp (.reserving index)) :=
            stand_turn true inside (by simp [turn, below, empty])
          have filling : ∃ after, Run ServiceManager.step
              (stand system place nmsp (.reserving index)) after ∧
              Left system after place nmsp (fillSlot system.manager index nmsp answers) :=
            fill_run inside index create
          obtain ⟨after, fills, left⟩ := filling
          refine ⟨after, ((begins.trans places).trans reserves).trans fills, ?_⟩
          simpa only [getServiceForNmsp, named, free] using left

end Alone

section Runs

variable {client after : Client}

/-- The table is ordered and has the creator of every connection under its namespace. -/
structure Sound (client : Client) : Prop where
  ordered : Ordered client.manager
  created : ∀ con ∈ client.cons, Has client.manager con.mNetNs con.creator

theorem init_sound : Sound .init :=
  ⟨init_ordered, fun _ impossible => by cases impossible⟩

/-- What one call does to the table, whatever it returns. -/
theorem get_kept {manager : Manager} (ordered : Ordered manager) (nmsp : String)
    (answers : Answers) :
    Ordered (getServiceForNmsp manager nmsp answers).2 ∧
      (∀ name service, Has manager name service →
        Has (getServiceForNmsp manager nmsp answers).2 name service) ∧
      ∀ service, (getServiceForNmsp manager nmsp answers).1 = some service →
        Has (getServiceForNmsp manager nmsp answers).2 nmsp service := by
  rcases get_cases ordered nmsp answers with
    ⟨service, has, same⟩ | same | ⟨index, service, unnamed, free, same⟩
  · rw [same]
    refine ⟨ordered, fun _ _ has => has, fun other answered => ?_⟩
    cases answered
    exact has
  · rw [same]
    exact ⟨ordered, fun _ _ has => has, fun _ impossible => by cases impossible⟩
  · rw [same]
    refine ⟨filled_ordered ordered unnamed free, fun _ _ has => has_filled free has, ?_⟩
    intro other answered
    cases answered
    exact filled_has (free_some free).1

/-- A step makes one call at most, so what the table has it keeps. -/
theorem step_sound {label : Label} (sound : Sound client)
    (stepped : step client label = some after) :
    Sound after ∧ ∀ nmsp service, Has client.manager nmsp service →
      Has after.manager nmsp service := by
  have only : ∀ nmsp answers, Sound
      { client with manager := (getServiceForNmsp client.manager nmsp answers).2 } := by
    intro nmsp answers
    obtain ⟨ordered, keeps, _⟩ := get_kept sound.ordered nmsp answers
    exact ⟨ordered, fun con member => keeps _ _ (sound.created con member)⟩
  cases label with
  | get nmsp answers =>
      cases stepped
      exact ⟨only nmsp answers, (get_kept sound.ordered nmsp answers).2.1⟩
  | createNs netNs memory answers object =>
      obtain ⟨ordered, keeps, stores⟩ := get_kept sound.ordered netNs answers
      cases stepped
      unfold asockCreateNs
      split
      · exact ⟨sound, fun _ _ has => has⟩
      · simp only
        split
        · exact ⟨only netNs answers, keeps⟩
        · rename_i service answered
          split
          · refine ⟨⟨ordered, fun con member => ?_⟩, keeps⟩
            rcases List.mem_append.mp member with old | new
            · exact keeps _ _ (sound.created con old)
            · rw [List.mem_singleton.mp new]
              exact stores service answered
          · exact ⟨only netNs answers, keeps⟩
  | connect place answers =>
      obtain ⟨con, _, same⟩ := Option.map_eq_some_iff.mp stepped
      cases same
      exact ⟨only con.mNetNs answers, (get_kept sound.ordered con.mNetNs answers).2.1⟩

theorem run_sound (run : Run step .init client) : Sound client :=
  run.invariant Sound (fun _ _ _ sound _ stepped => (step_sound sound stepped).1) init_sound

/-- A service that the table has is not lost in any later history. -/
theorem run_has {nmsp : String} {service : ServiceRef} (sound : Sound client)
    (run : Run step client after) (has : Has client.manager nmsp service) :
    Sound after ∧ Has after.manager nmsp service := by
  apply run.invariant (fun later => Sound later ∧ Has later.manager nmsp service) _ ⟨sound, has⟩
  intro before label next held _ stepped
  obtain ⟨nextSound, keeps⟩ := step_sound held.1 stepped
  exact ⟨nextSound, keeps nmsp service held.2⟩

end Runs

section Results

theorem service_table_stable (client : Client) (run : Run step .init client) :
    Ordered client.manager ∧
    (∀ nmsp answers after, getServiceForNmsp client.manager nmsp answers = (none, after) →
      after = client.manager) ∧
    (∀ nmsp answers service after,
      getServiceForNmsp client.manager nmsp answers = (some service, after) →
      ∀ later, Run step { client with manager := after } later → ∀ retry,
        getServiceForNmsp later.manager nmsp retry = (some service, later.manager)) ∧
    ∀ con ∈ client.cons, ∀ answers, asockConnect client con answers = (some con.creator, client) := by
  have sound := run_sound run
  refine ⟨sound.ordered, ?_, ?_, ?_⟩
  · intro nmsp answers after failed
    rcases get_cases sound.ordered nmsp answers with
      ⟨_, _, same⟩ | same | ⟨_, _, _, _, same⟩ <;> rw [failed] at same <;> cases same
    rfl
  · intro nmsp answers service after answered later history retry
    obtain ⟨ordered, keeps, stores⟩ := get_kept sound.ordered nmsp answers
    rw [answered] at ordered keeps stores
    have start : Sound { client with manager := after } :=
      ⟨ordered, fun con member => keeps _ _ (sound.created con member)⟩
    obtain ⟨laterSound, has⟩ := run_has start history (stores service rfl)
    exact get_has laterSound.ordered has
  · intro con member answers
    simp only [asockConnect, get_has sound.ordered (sound.created con member)]

-- The service of one namespace outlives a failed call for another one.
theorem first_service_stays : ∃ client, Run step .init client ∧
    getServiceForNmsp client.manager "left" ⟨false, none, false⟩ = (some 4, client.manager) := by
  let first := (getServiceForNmsp .init "left" ⟨true, some 4, true⟩).2
  have answered : getServiceForNmsp .init "left" ⟨true, some 4, true⟩ = (some 4, first) := rfl
  obtain ⟨_, _, stays, _⟩ := service_table_stable .init .refl
  refine ⟨_, .next (.get "right" ⟨true, none, true⟩) (.next (.get "left" ⟨true, some 4, true⟩) .refl
    trivial rfl) trivial rfl, ?_⟩
  exact stays "left" ⟨true, some 4, true⟩ 4 first answered _
    (.next (.get "right" ⟨true, none, true⟩) .refl trivial rfl) ⟨false, none, false⟩

end Results

end Libasock.ServiceTable
