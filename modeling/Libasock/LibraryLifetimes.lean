import Libasock.ServiceTable

/-!
The life of the library in one thread: `asock_init`, `asock_deinit`,
`asock_create_ns` and `asock_connect` in any order. `asock_init` empties the
table, `asock_service_mgr_free_resources` destroys what is in it and leaves the
pointers where they are.
-/

namespace Libasock.LibraryLifetimes
open GuardedRuns ServiceManager ServiceTable

section Model

/-- A string of `strdup` by the order of allocation. -/
abbrev NameRef := Nat

inductive Event where
  | returned (service : ServiceRef)
  | destroyed (service : ServiceRef)
  | freed (name : NameRef)
  deriving DecidableEq

def Event.service? : Event → Option ServiceRef
  | .destroyed service => some service
  | _ => none

def Event.name? : Event → Option NameRef
  | .freed name => some name
  | _ => none

structure Library where
  manager : Manager
  /-- The allocation behind `m_service_nms`, whose text is in `manager`. -/
  nameRefs : Nat → Option NameRef
  /-- The `m_net_ns` of every connection created. -/
  cons : List String
  services : Nat
  names : Nat
  log : List Event

/-- The static variable before the first call. -/
def Library.zeroed : Library := ⟨.init, fun _ => none, [], 0, 0, []⟩

def Library.destroyed (library : Library) : List ServiceRef := library.log.filterMap Event.service?

def Library.freed (library : Library) : List NameRef := library.log.filterMap Event.name?

/-- `asock_service_mgr_get_service_for_nmsp` with the answer of its `strdup`; services are
created and started without failure. -/
def getService (library : Library) (nmsp : String) (strdup : Bool) :
    Option ServiceRef × Library :=
  let result := getServiceForNmsp library.manager nmsp ⟨strdup, some library.services, true⟩
  let answered := { library with
    manager := result.2
    log := library.log ++ (result.1.map Event.returned).toList }
  match namedSlot library.manager nmsp, freeSlot library.manager with
  | none, some index =>
      if strdup then
        (result.1, { answered with
          nameRefs := Function.update library.nameRefs index (some library.names)
          services := library.services + 1
          names := library.names + 1 })
      else (result.1, { answered with nameRefs := Function.update library.nameRefs index none })
  | _, _ => (result.1, answered)

/-- The body of the loop of `asock_service_mgr_free_resources`. -/
def releases (library : Library) (index : Nat) : List Event :=
  match library.manager.mServices index with
  | none => []
  | some service => ((library.nameRefs index).map Event.freed).toList ++ [.destroyed service]

def asockInit (library : Library) : Library :=
  { library with manager := .init, nameRefs := fun _ => none }

def asockDeinit (library : Library) : Library :=
  { library with log := library.log ++ (List.range maxAsockServices).flatMap (releases library) }

/-- `memory` answers the `strdup` of `asock_create_ns`, `object` the creation of the
connection. -/
def asockCreateNs (library : Library) (netNs : String) (memory strdup object : Bool) : Library :=
  if memory = false then library
  else
    let result := getService library netNs strdup
    if result.1.isSome && object then
      { result.2 with cons := library.cons ++ [netNs] }
    else result.2

def asockConnect (library : Library) (netNs : String) (strdup : Bool) : Library :=
  (getService library netNs strdup).2

inductive Label where
  | init
  | deinit
  | createNs (netNs : String) (memory strdup object : Bool)
  | connect (place : Nat) (strdup : Bool)
  /-- Freed memory is used again: the name of a destroyed service reads as another text. -/
  | reuse (index : Nat) (text : String)

def step (library : Library) : Label → Option Library
  | .init => some (asockInit library)
  | .deinit => some (asockDeinit library)
  | .createNs netNs memory strdup object =>
      some (asockCreateNs library netNs memory strdup object)
  | .connect place strdup =>
      library.cons[place]?.map fun netNs => asockConnect library netNs strdup
  | .reuse index text =>
      if (library.manager.mServices index).any library.destroyed.contains then
        some { library with manager := library.manager.setName index (some text) }
      else none

/-- No service is returned once it is destroyed. -/
def Event.Allows (earlier later : Event) : Prop :=
  ∀ service, earlier = .destroyed service → later ≠ .returned service

/-- The log is in order, services and names go at most once, and every service is in the table
or destroyed. -/
structure Respected (library : Library) : Prop where
  returned : library.log.Pairwise Event.Allows
  services : library.destroyed.Nodup
  names : library.freed.Nodup
  tabled : ∀ service < library.services, service ∈ library.destroyed ∨
    ∃ index < maxAsockServices, library.manager.mServices index = some service

/-- The search for the namespace stops at a destroyed service. -/
def Stale (library : Library) (nmsp : String) : Prop :=
  ∃ index service, namedSlot library.manager nmsp = some index ∧
    library.manager.mServices index = some service ∧ service ∈ library.destroyed

/-- `asock_init` comes when the services of the table are destroyed, `asock_deinit` when none
is, and no search stops at a destroyed one. -/
def Fresh (library : Library) : Label → Prop
  | .init => ∀ index service, library.manager.mServices index = some service →
      service ∈ library.destroyed
  | .deinit => ∀ index service, library.manager.mServices index = some service →
      service ∉ library.destroyed
  | .createNs netNs memory _ _ => memory = true → ¬ Stale library netNs
  | .connect place _ => ∀ netNs, library.cons[place]? = some netNs → ¬ Stale library netNs
  | .reuse _ _ => True

end Model

section Columns

/-- An array of the table with what was ever put into it and what of that is gone. -/
structure Column (slots : Nat → Option Nat) (made : Nat) (gone : List Nat) : Prop where
  inside : ∀ index item, slots index = some item → index < maxAsockServices ∧ item < made
  apart : ∀ left right item, slots left = some item → slots right = some item → left = right
  known : ∀ item ∈ gone, item < made
  once : gone.Nodup

variable {slots : Nat → Option Nat} {made : Nat} {gone : List Nat}

theorem Column.cleared (column : Column slots made gone) :
    Column (fun _ => none) made gone := by
  constructor
  case inside =>
    intro _ _ impossible
    cases impossible
  case apart =>
    intro _ _ _ impossible
    cases impossible
  case known => exact column.known
  case once => exact column.once

theorem Column.filled {index : Nat} (column : Column slots made gone)
    (below : index < maxAsockServices) :
    Column (Function.update slots index (some made)) (made + 1) gone := by
  constructor
  case inside =>
    intro other item held
    by_cases same : other = index
    · subst same
      rw [Function.update_self, Option.some.injEq] at held
      exact ⟨below, by omega⟩
    · rw [Function.update_of_ne same] at held
      obtain ⟨otherBelow, older⟩ := column.inside other item held
      exact ⟨otherBelow, by omega⟩
  case apart =>
    intro left right item leftHeld rightHeld
    by_cases leftHere : left = index <;> by_cases rightHere : right = index
    · rw [leftHere, rightHere]
    · rw [leftHere, Function.update_self, Option.some.injEq] at leftHeld
      rw [Function.update_of_ne rightHere] at rightHeld
      have older := (column.inside right item rightHeld).2
      omega
    · rw [rightHere, Function.update_self, Option.some.injEq] at rightHeld
      rw [Function.update_of_ne leftHere] at leftHeld
      have older := (column.inside left item leftHeld).2
      omega
    · rw [Function.update_of_ne leftHere] at leftHeld
      rw [Function.update_of_ne rightHere] at rightHeld
      exact column.apart left right item leftHeld rightHeld
  case known =>
    intro item member
    have older := column.known item member
    omega
  case once => exact column.once

/-- What the loop over the slots meets. -/
def contents (slots : Nat → Option Nat) : List Nat := (List.range maxAsockServices).filterMap slots

theorem Column.mem_contents (column : Column slots made gone) {item : Nat} :
    item ∈ contents slots ↔ ∃ index, slots index = some item := by
  constructor
  · intro member
    obtain ⟨index, _, held⟩ := List.mem_filterMap.mp member
    exact ⟨index, held⟩
  · rintro ⟨index, held⟩
    exact List.mem_filterMap.mpr
      ⟨index, List.mem_range.mpr (column.inside index item held).1, held⟩

theorem Column.contents_once (column : Column slots made gone) : (contents slots).Nodup :=
  List.Nodup.filterMap (fun left right item leftHeld rightHeld =>
    column.apart left right item leftHeld rightHeld) List.nodup_range

/-- The loop leaves the slots as they are; it is right exactly where nothing in them is gone. -/
theorem Column.released_once (column : Column slots made gone) :
    (gone ++ contents slots).Nodup ↔ ∀ index item, slots index = some item → item ∉ gone := by
  rw [List.nodup_append]
  constructor
  · rintro ⟨_, _, apart⟩ index item held member
    exact apart item member item (column.mem_contents.mpr ⟨index, held⟩) rfl
  · intro live
    refine ⟨column.once, column.contents_once, fun item member other met same => ?_⟩
    obtain ⟨index, held⟩ := column.mem_contents.mp met
    exact live index other held (same ▸ member)

theorem Column.released (column : Column slots made gone)
    (live : ∀ index item, slots index = some item → item ∉ gone) :
    Column slots made (gone ++ contents slots) := by
  refine ⟨column.inside, column.apart, fun item member => ?_, column.released_once.mpr live⟩
  rcases List.mem_append.mp member with old | met
  · exact column.known item old
  · obtain ⟨index, held⟩ := column.mem_contents.mp met
    exact (column.inside index item held).2

end Columns

section Calls

variable {library : Library}

theorem slot_unset {α β : Type} {slot : Option α} {other : Option β}
    (both : slot.isSome = other.isSome) (empty : other = none) : slot = none := by
  rw [empty, Option.isSome_none, Option.isSome_eq_false_iff, Option.isNone_iff_eq_none] at both
  exact both

/-- Two arrays set at the same places are so after one more. -/
theorem update_set {α β : Type} {slots : Nat → Option α} {others : Nat → Option β}
    (same : ∀ place, (slots place).isSome = (others place).isSome) (index : Nat) (item : α)
    (second : β) (place : Nat) : (Function.update slots index (some item) place).isSome =
      (Function.update others index (some second) place).isSome := by
  by_cases here : place = index
  · rw [here, Function.update_self, Function.update_self]
    rfl
  · rw [Function.update_of_ne here, Function.update_of_ne here]
    exact same place

theorem slot_set {α β : Type} {slot : Option α} {other : Option β} {item : α}
    (both : slot.isSome = other.isSome) (held : slot = some item) :
    ∃ second, other = some second := by
  rw [held, Option.isSome_some, eq_comm, Option.isSome_iff_exists] at both
  exact both

/-- The table is in step with the log. -/
structure Kept (library : Library) : Prop where
  paired : ∀ index,
    (library.manager.mServiceNms index).isSome = (library.manager.mServices index).isSome
  referred : ∀ index,
    (library.nameRefs index).isSome = (library.manager.mServices index).isSome
  services : Column library.manager.mServices library.services library.destroyed
  names : Column library.nameRefs library.names library.freed
  together : ∀ index service name, library.manager.mServices index = some service →
    library.nameRefs index = some name → (service ∈ library.destroyed ↔ name ∈ library.freed)
  returned : library.log.Pairwise Event.Allows
  tabled : ∀ service < library.services, service ∈ library.destroyed ∨
    ∃ index < maxAsockServices, library.manager.mServices index = some service

theorem Kept.respected (kept : Kept library) : Respected library :=
  ⟨kept.returned, kept.services.once, kept.names.once, kept.tabled⟩

theorem zeroed_kept : Kept (asockInit .zeroed) := by
  constructor
  case paired => exact fun _ => rfl
  case referred => exact fun _ => rfl
  case services =>
    constructor <;> simp [asockInit, Library.zeroed, Library.destroyed, Manager.init]
  case names =>
    constructor <;> simp [asockInit, Library.zeroed, Library.freed]
  case together =>
    intro _ _ _ impossible
    cases impossible
  case returned => exact .nil
  case tabled =>
    intro _ impossible
    cases impossible

theorem init_kept (kept : Kept library) (fresh : Fresh library .init) :
    Kept (asockInit library) := by
  constructor
  case paired => exact fun _ => rfl
  case referred => exact fun _ => rfl
  case services => exact kept.services.cleared
  case names => exact kept.names.cleared
  case together =>
    intro _ _ _ impossible
    cases impossible
  case returned => exact kept.returned
  case tabled =>
    intro service older
    rcases kept.tabled service older with gone | ⟨index, _, held⟩
    · exact .inl gone
    · exact .inl (fresh index service held)

/-- A service that `asock_init` drops from the table without its destruction is lost. -/
theorem init_fresh (kept : Kept library) (respected : Respected (asockInit library)) :
    Fresh library .init := by
  intro index service held
  rcases respected.tabled service (kept.services.inside index service held).2 with
    gone | ⟨_, _, impossible⟩
  · exact gone
  · cases impossible

theorem releases_services (index : Nat) :
    (releases library index).filterMap Event.service? =
      (library.manager.mServices index).toList := by
  unfold releases
  cases library.manager.mServices index with
  | none => rfl
  | some service => cases library.nameRefs index <;> rfl

theorem releases_names (kept : Kept library) (index : Nat) :
    (releases library index).filterMap Event.name? = (library.nameRefs index).toList := by
  unfold releases
  cases held : library.manager.mServices index with
  | none =>
      rw [slot_unset (kept.referred index) held]
      rfl
  | some service => cases library.nameRefs index <;> rfl

theorem deinit_destroyed :
    (asockDeinit library).destroyed = library.destroyed ++ contents library.manager.mServices := by
  unfold Library.destroyed asockDeinit contents
  rw [List.filterMap_append, List.filterMap_flatMap, List.filterMap_eq_flatMap_toList
    library.manager.mServices]
  simp only [releases_services]

theorem deinit_freed (kept : Kept library) :
    (asockDeinit library).freed = library.freed ++ contents library.nameRefs := by
  unfold Library.freed asockDeinit contents
  rw [List.filterMap_append, List.filterMap_flatMap, List.filterMap_eq_flatMap_toList
    library.nameRefs]
  simp only [releases_names kept]

/-- `asock_deinit` returns no service. -/
theorem releases_silent {index : Nat} {event : Event} (member : event ∈ releases library index)
    (service : ServiceRef) : event ≠ .returned service := by
  rintro rfl
  unfold releases at member
  cases held : library.manager.mServices index <;> cases library.nameRefs index <;>
    simp_all

theorem deinit_returned (kept : Kept library) :
    (asockDeinit library).log.Pairwise Event.Allows := by
  have silent : ∀ event ∈ (List.range maxAsockServices).flatMap (releases library),
      ∀ earlier : Event, earlier.Allows event := by
    intro event member earlier service _
    obtain ⟨index, _, released⟩ := List.mem_flatMap.mp member
    exact releases_silent released service
  refine List.pairwise_append.mpr ⟨kept.returned, ?_, fun earlier _ later member =>
    silent later member earlier⟩
  exact List.pairwise_of_forall_mem_list fun earlier _ later member => silent later member earlier

theorem deinit_kept (kept : Kept library) (fresh : Fresh library .deinit) :
    Kept (asockDeinit library) := by
  have unfreed : ∀ index name, library.nameRefs index = some name → name ∉ library.freed := by
    intro index name referred gone
    obtain ⟨service, held⟩ := slot_set (kept.referred index) referred
    exact fresh index service held ((kept.together index service name held referred).mpr gone)
  constructor
  case paired => exact kept.paired
  case referred => exact kept.referred
  case services =>
    rw [deinit_destroyed]
    exact kept.services.released fresh
  case names =>
    rw [deinit_freed kept]
    exact kept.names.released unfreed
  case together =>
    intro index service name held referred
    rw [deinit_destroyed, deinit_freed kept]
    exact iff_of_true
      (List.mem_append_right _ (kept.services.mem_contents.mpr ⟨index, held⟩))
      (List.mem_append_right _ (kept.names.mem_contents.mpr ⟨index, referred⟩))
  case returned => exact deinit_returned kept
  case tabled =>
    intro service older
    rcases kept.tabled service older with gone | present
    · rw [deinit_destroyed]
      exact .inl (List.mem_append_left _ gone)
    · exact .inr present

/-- A destroyed service of the table is destroyed again. -/
theorem deinit_fresh (kept : Kept library) (respected : Respected (asockDeinit library)) :
    Fresh library .deinit := by
  have once := respected.services
  rw [deinit_destroyed] at once
  exact kept.services.released_once.mp once

end Calls

section Searches

variable {library : Library} {nmsp : String} {strdup : Bool}

def answered (library : Library) (service : ServiceRef) : Library :=
  { library with log := library.log ++ [.returned service] }

/-- The library with one more service, in the slot `index`. -/
def grown (library : Library) (index : Nat) (nmsp : String) : Library :=
  { library with
    manager := ServiceTable.filled library.manager index nmsp library.services
    nameRefs := Function.update library.nameRefs index (some library.names)
    services := library.services + 1
    names := library.names + 1
    log := library.log ++ [.returned library.services] }

theorem get_cases (kept : Kept library) (nmsp : String) (strdup : Bool) :
    (∃ index service, namedSlot library.manager nmsp = some index ∧
      library.manager.mServices index = some service ∧
      getService library nmsp strdup = (some service, answered library service)) ∨
    (namedSlot library.manager nmsp = none ∧ getService library nmsp strdup = (none, library)) ∨
    ∃ index, namedSlot library.manager nmsp = none ∧ index < maxAsockServices ∧
      library.manager.mServices index = none ∧
      getService library nmsp strdup = (some library.services, grown library index nmsp) := by
  cases named : namedSlot library.manager nmsp with
  | some index =>
      obtain ⟨service, held⟩ := slot_set (kept.paired index) (named_some named).2
      refine .inl ⟨index, service, rfl, held, ?_⟩
      simp only [getService, getServiceForNmsp, named, held]
      rfl
  | none =>
      cases free : freeSlot library.manager with
      | none =>
          refine .inr (.inl ⟨rfl, ?_⟩)
          simp [getService, getServiceForNmsp, named, free]
      | some index =>
          obtain ⟨below, empty, _⟩ := free_some free
          cases strdup with
          | false =>
              have unnamed := name_restored (slot_unset (kept.paired index) empty)
              have unreferred : Function.update library.nameRefs index none = library.nameRefs := by
                rw [← slot_unset (kept.referred index) empty, Function.update_eq_self]
              refine .inr (.inl ⟨rfl, ?_⟩)
              simp [getService, getServiceForNmsp, fillSlot, named, free, unnamed, unreferred]
          | true =>
              refine .inr (.inr ⟨index, rfl, below, empty, ?_⟩)
              simp only [getService, getServiceForNmsp, named, free]
              rfl

theorem logged_destroyed (log : List Event) (service : ServiceRef) :
    (log ++ [Event.returned service]).filterMap Event.service? = log.filterMap Event.service? := by
  rw [List.filterMap_append]
  exact List.append_nil _

theorem logged_freed (log : List Event) (service : ServiceRef) :
    (log ++ [Event.returned service]).filterMap Event.name? = log.filterMap Event.name? := by
  rw [List.filterMap_append]
  exact List.append_nil _

/-- A return may be logged where the service has not been destroyed. -/
theorem logged_returned {log : List Event} {service : ServiceRef} :
    (log ++ [Event.returned service]).Pairwise Event.Allows ↔
      log.Pairwise Event.Allows ∧ service ∉ log.filterMap Event.service? := by
  rw [List.pairwise_append]
  constructor
  · rintro ⟨earlier, _, allowed⟩
    refine ⟨earlier, fun member => ?_⟩
    obtain ⟨event, logged, destroys⟩ := List.mem_filterMap.mp member
    cases event with
    | destroyed other =>
        cases destroys
        exact allowed _ logged _ (List.mem_singleton_self _) service rfl rfl
    | returned other => cases destroys
    | freed name => cases destroys
  · rintro ⟨earlier, alive⟩
    refine ⟨earlier, List.pairwise_singleton .., fun event logged later member other destroys => ?_⟩
    rw [List.mem_singleton.mp member]
    rintro same
    cases same
    exact alive (List.mem_filterMap.mpr ⟨event, logged, by rw [destroys]; rfl⟩)

theorem answered_kept {service : ServiceRef} (kept : Kept library)
    (alive : service ∉ library.destroyed) : Kept (answered library service) := by
  have sameServices : (answered library service).destroyed = library.destroyed :=
    logged_destroyed ..
  have sameNames : (answered library service).freed = library.freed := logged_freed ..
  constructor
  case paired => exact kept.paired
  case referred => exact kept.referred
  case services =>
    rw [sameServices]
    exact kept.services
  case names =>
    rw [sameNames]
    exact kept.names
  case together =>
    rw [sameServices, sameNames]
    exact kept.together
  case returned => exact logged_returned.mpr ⟨kept.returned, alive⟩
  case tabled =>
    rw [sameServices]
    exact kept.tabled

theorem grown_kept {index : Nat} (kept : Kept library) (below : index < maxAsockServices)
    (empty : library.manager.mServices index = none) : Kept (grown library index nmsp) := by
  have sameServices : (grown library index nmsp).destroyed = library.destroyed :=
    logged_destroyed ..
  have sameNames : (grown library index nmsp).freed = library.freed := logged_freed ..
  have newService : library.services ∉ library.destroyed :=
    fun gone => absurd (kept.services.known _ gone) (Nat.lt_irrefl _)
  have newName : library.names ∉ library.freed :=
    fun gone => absurd (kept.names.known _ gone) (Nat.lt_irrefl _)
  constructor
  case paired => exact update_set kept.paired index nmsp library.services
  case referred => exact update_set kept.referred index library.names library.services
  case services =>
    rw [sameServices]
    exact kept.services.filled below
  case names =>
    rw [sameNames]
    exact kept.names.filled below
  case together =>
    intro other service name held referred
    rw [sameServices, sameNames]
    by_cases same : other = index
    · subst same
      simp only [grown, ServiceTable.filled, Manager.setService, Function.update_self,
        Option.some.injEq] at held referred
      rw [← held, ← referred]
      exact iff_of_false newService newName
    · simp only [grown, ServiceTable.filled, Manager.setService, Manager.setName,
        Function.update_of_ne same] at held referred
      exact kept.together other service name held referred
  case returned => exact logged_returned.mpr ⟨kept.returned, newService⟩
  case tabled =>
    intro service older
    rw [sameServices]
    by_cases same : service = library.services
    · exact .inr ⟨index, below, by
        rw [same]
        exact Function.update_self ..⟩
    · rcases kept.tabled service (by simp only [grown] at older; omega) with
        gone | ⟨other, otherBelow, held⟩
      · exact .inl gone
      · have different : other ≠ index := by
          rintro rfl
          rw [empty] at held
          cases held
        exact .inr ⟨other, otherBelow, (Function.update_of_ne different ..).trans held⟩

theorem get_kept (kept : Kept library) (fresh : ¬ Stale library nmsp) :
    Kept (getService library nmsp strdup).2 := by
  rcases get_cases kept nmsp strdup with
    ⟨index, service, named, held, same⟩ | ⟨_, same⟩ | ⟨index, _, below, empty, same⟩ <;> rw [same]
  · exact answered_kept kept fun gone => fresh ⟨index, service, named, held, gone⟩
  · exact kept
  · exact grown_kept kept below empty

/-- A search that stops at a destroyed service returns it. -/
theorem get_fresh (kept : Kept library)
    (returned : (getService library nmsp strdup).2.log.Pairwise Event.Allows) :
    ¬ Stale library nmsp := by
  rintro ⟨index, service, named, held, gone⟩
  rcases get_cases kept nmsp strdup with
    ⟨found, other, foundNamed, foundHeld, same⟩ | ⟨unnamed, _⟩ | ⟨_, unnamed, _⟩
  · rw [named, Option.some.injEq] at foundNamed
    rw [← foundNamed, held, Option.some.injEq] at foundHeld
    rw [same, ← foundHeld] at returned
    exact (logged_returned.mp returned).2 gone
  · rw [named] at unnamed
    cases unnamed
  · rw [named] at unnamed
    cases unnamed

end Searches

section Runs

variable {library after : Library} {label : Label}

/-- The connections play no part in it. -/
theorem Kept.connected (kept : Kept library) (cons : List String) :
    Kept { library with cons := cons } :=
  ⟨kept.paired, kept.referred, kept.services, kept.names, kept.together, kept.returned,
    kept.tabled⟩

theorem create_kept {netNs : String} {memory strdup object : Bool} (kept : Kept library)
    (fresh : memory = true → ¬ Stale library netNs) :
    Kept (asockCreateNs library netNs memory strdup object) := by
  cases memory with
  | false => exact kept
  | true =>
      have called : Kept (getService library netNs strdup).2 := get_kept kept (fresh rfl)
      simp only [asockCreateNs, Bool.true_eq_false, if_false]
      split
      · exact called.connected _
      · exact called

theorem create_log (netNs : String) (strdup object : Bool) :
    (asockCreateNs library netNs true strdup object).log =
      (getService library netNs strdup).2.log := by
  simp only [asockCreateNs, Bool.true_eq_false, if_false]
  split <;> rfl

theorem reuse_kept {index : Nat} {text : String} (kept : Kept library)
    (stepped : step library (.reuse index text) = some after) : Kept after := by
  simp only [step] at stepped
  split at stepped
  · rename_i gone
    cases stepped
    have held : (library.manager.mServices index).isSome = true := by
      cases slot : library.manager.mServices index with
      | none => simp [slot] at gone
      | some service => rfl
    refine ⟨fun other => ?_, kept.referred, kept.services, kept.names, kept.together,
      kept.returned, kept.tabled⟩
    by_cases same : other = index
    · subst same
      simp [Manager.setName, held]
    · simpa [Manager.setName, same] using kept.paired other
  · cases stepped

theorem step_kept (kept : Kept library) (fresh : Fresh library label)
    (stepped : step library label = some after) : Kept after := by
  cases label with
  | init =>
      cases stepped
      exact init_kept kept fresh
  | deinit =>
      cases stepped
      exact deinit_kept kept fresh
  | createNs netNs memory strdup object =>
      cases stepped
      exact create_kept kept fresh
  | connect place strdup =>
      obtain ⟨netNs, found, same⟩ := Option.map_eq_some_iff.mp stepped
      subst same
      exact get_kept kept (fresh netNs found)
  | reuse index text => exact reuse_kept kept stepped

/-- Each step that is not fresh does what must not happen. -/
theorem step_fresh (kept : Kept library) (respected : Respected after)
    (stepped : step library label = some after) : Fresh library label := by
  cases label with
  | init =>
      cases stepped
      exact init_fresh kept respected
  | deinit =>
      cases stepped
      exact deinit_fresh kept respected
  | createNs netNs memory strdup object =>
      cases stepped
      intro granted
      have returned := respected.returned
      rw [granted, create_log] at returned
      exact get_fresh kept returned
  | connect place strdup =>
      obtain ⟨netNs, found, same⟩ := Option.map_eq_some_iff.mp stepped
      subst same
      intro other otherFound
      rw [found, Option.some.injEq] at otherFound
      rw [← otherFound]
      exact get_fresh kept respected.returned
  | reuse index text => trivial

end Runs

section Results

-- One step ahead the condition is exact; what it leaves out goes wrong at once.
theorem lifetimes_respected (library : Library)
    (run : GuardedRun step Fresh (asockInit .zeroed) library) :
    Respected library ∧ ∀ label after, step library label = some after →
      (Respected after ↔ Fresh library label) := by
  have kept : Kept library := run.invariant Kept
    (fun _ _ _ kept fresh stepped => step_kept kept fresh stepped) zeroed_kept
  refine ⟨kept.respected, fun label after stepped => ⟨fun respected => ?_, fun fresh => ?_⟩⟩
  · exact step_fresh kept respected stepped
  · exact (step_kept kept fresh stepped).respected

/-- The library after the first `asock_init` and these calls. -/
def reached (history : List Label) : Option Library := exec step (asockInit .zeroed) history

-- A second `asock_deinit`, a creation after `asock_deinit`, a second `asock_init`.
theorem library_lifetimes_fail :
    (∃ library, reached [.createNs "" true true true, .deinit, .deinit] = some library ∧
      library.destroyed = [0, 0] ∧ library.freed = [0, 0] ∧ ¬ Respected library) ∧
    (∃ library, reached [.createNs "" true true true, .deinit, .createNs "" true true true] =
        some library ∧
      library.log = [.returned 0, .freed 0, .destroyed 0, .returned 0] ∧ ¬ Respected library) ∧
    ∃ library, reached [.createNs "" true true true, .init] = some library ∧
      library.services = 1 ∧ library.destroyed = [] ∧
      (∀ index, library.manager.mServices index = none) ∧ ¬ Respected library := by
  refine ⟨⟨_, rfl, rfl, rfl, fun respected => ?_⟩, ⟨_, rfl, rfl, fun respected => ?_⟩,
    ⟨_, rfl, rfl, rfl, fun _ => rfl, fun respected => ?_⟩⟩
  · have twice : (0 : ServiceRef) ∉ [0] := (List.nodup_cons.mp respected.services).1
    exact twice (List.mem_singleton_self 0)
  · have order : Event.Allows (.destroyed 0) (.returned 0) :=
      List.rel_of_pairwise_cons (List.pairwise_cons.mp
        (List.pairwise_cons.mp respected.returned).2).2 (List.mem_singleton_self _)
    exact order 0 rfl rfl
  · rcases respected.tabled 0 (Nat.lt_succ_self _) with impossible | ⟨_, _, impossible⟩
    · cases impossible
    · cases impossible

-- A service of a second life, after the one of the first is destroyed.
theorem two_lifetimes_respected : ∃ library,
    reached [.createNs "" true true true, .deinit, .init, .createNs "" true true true] =
      some library ∧ Respected library ∧ library.destroyed = [0] := by
  let created := asockCreateNs (asockInit .zeroed) "" true true true
  have slots : (asockDeinit created).manager.mServices =
      Function.update (fun _ => none) 0 (some 0) := rfl
  have create : Fresh (asockInit .zeroed) (.createNs "" true true true) := by
    rintro _ ⟨_, _, _, impossible, _⟩
    cases impossible
  have deinit : Fresh created .deinit := by
    intro _ _ _ impossible
    cases impossible
  have init : Fresh (asockDeinit created) .init := by
    intro index service held
    by_cases same : index = 0
    · subst same
      cases held
      exact List.mem_singleton_self 0
    · rw [slots, Function.update_of_ne same] at held
      cases held
  have again : Fresh (asockInit (asockDeinit created)) (.createNs "" true true true) := by
    rintro _ ⟨_, _, _, impossible, _⟩
    cases impossible
  have run : GuardedRun step Fresh (asockInit .zeroed) (asockInit (asockDeinit created)) :=
    .next .init (.next .deinit (.next (.createNs "" true true true) .refl create rfl) deinit rfl)
      init rfl
  exact ⟨_, rfl, ((lifetimes_respected _ run).2 _ _ rfl).mpr again, rfl⟩

end Results

end Libasock.LibraryLifetimes
