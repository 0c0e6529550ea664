import Libasock.ServiceManager

/-!
The table of services while the steps of the calls keep apart: a slot belongs to
the call that wrote its name until the service is stored, no two slots have one
name, and the counter lags behind the stored services by the calls that have not
counted theirs yet.
-/

namespace Libasock.NamespaceServices
open GuardedRuns ServiceManager

variable {system after : System} {place : Nat} {call : Call}

/-- The namespace has a slot with a service. -/
def Filled (system : System) (nmsp : String) (service : ServiceRef) : Prop :=
  ∃ index < maxAsockServices, system.manager.mServices index = some service ∧
    system.manager.mServiceNms index = some nmsp

/-- The slot has the call's name and no service yet. -/
def Owns (system : System) (call : Call) (index : Nat) : Prop :=
  index < maxAsockServices ∧ system.manager.mServiceNms index = some call.nmsp ∧
    system.manager.mServices index = none

def Made (system : System) (call : Call) (service : ServiceRef) : Prop :=
  system.namespaces[service]? = some (some call.nmsp)

/-- What the table says about a call wherever it stands. -/
def Fits (system : System) (call : Call) : Prop :=
  match call.pc with
  | .searching _ | .placing _ => True
  | .comparing index | .reserving index => index < maxAsockServices
  | .fetching index => index < maxAsockServices ∧
      system.manager.mServiceNms index = some call.nmsp
  | .checking index | .creating index => Owns system call index
  | .starting index service | .installing index service =>
      Owns system call index ∧ Made system call service
  | .counting service | .storing service _ => Filled system call.nmsp service
  | .withdrawing _ => False
  | .returned service => ∃ made, service = some made ∧ Filled system call.nmsp made

/-- The calls whose service is stored and not counted. -/
def lagging (system : System) : Nat := system.calls.countP fun call => uncounted call.pc

structure Tidy (system : System) : Prop where
  fits : ∀ call ∈ system.calls, Fits system call
  apart : ∀ (first second : Nat) (left right : Call) (index : Nat),
    system.calls[first]? = some left → system.calls[second]? = some right →
      reserved left.pc = some index → reserved right.pc = some index → first = second
  single : ∀ (left right : Nat) (nmsp : String), left < maxAsockServices →
    right < maxAsockServices → system.manager.mServiceNms left = some nmsp →
      system.manager.mServiceNms right = some nmsp → left = right
  named : ∀ index service, system.manager.mServices index = some service →
    ∃ nmsp, system.manager.mServiceNms index = some nmsp ∧
      system.namespaces[service]? = some (some nmsp)
  owned : ∀ index nmsp, system.manager.mServiceNms index = some nmsp →
    system.manager.mServices index = none →
      ∃ call ∈ system.calls, reserved call.pc = some index
  kept : ∀ install ∈ system.installs,
    system.manager.mServices install.index = some install.service
  alone : ∀ (first second : Nat) (left right : Call), system.calls[first]? = some left →
    system.calls[second]? = some right → storingPc left.pc = true → storingPc right.pc = true →
      first = second
  next : ∀ call ∈ system.calls, ∀ service value, call.pc = .storing service value →
    value = system.manager.mServCounter + 1
  counted : system.manager.mServCounter + lagging system = occupied system.manager

section Frames

/-- Nothing that the table says is taken back. -/
structure Later (before after : System) : Prop where
  names : ∀ index nmsp, before.manager.mServiceNms index = some nmsp →
    after.manager.mServiceNms index = some nmsp
  services : ∀ index service, before.manager.mServices index = some service →
    after.manager.mServices index = some service
  namespaces : ∀ (service : ServiceRef) (nmsp : Option String),
    before.namespaces[service]? = some nmsp → after.namespaces[service]? = some nmsp

theorem Later.refl (system : System) : Later system system :=
  ⟨fun _ _ name => name, fun _ _ held => held, fun _ _ made => made⟩

theorem filled_later {nmsp : String} {service : ServiceRef} (later : Later system after)
    (filled : Filled system nmsp service) : Filled after nmsp service := by
  obtain ⟨index, inside, held, name⟩ := filled
  exact ⟨index, inside, later.services index service held, later.names index nmsp name⟩

theorem owns_later {index : Nat} (later : Later system after) (owns : Owns system call index)
    (empty : after.manager.mServices index = none) : Owns after call index :=
  ⟨owns.1, later.names index call.nmsp owns.2.1, empty⟩

theorem fits_later (later : Later system after) (fits : Fits system call)
    (untouched : ∀ index, reserved call.pc = some index →
      system.manager.mServices index = none → after.manager.mServices index = none) :
    Fits after call := by
  unfold Fits at fits ⊢
  cases pc : call.pc with
  | searching | placing => trivial
  | comparing | reserving =>
      rw [pc] at fits
      exact fits
  | fetching index =>
      rw [pc] at fits
      exact ⟨fits.1, later.names index call.nmsp fits.2⟩
  | checking index | creating index =>
      rw [pc] at fits untouched
      exact owns_later later fits (untouched index rfl fits.2.2)
  | starting index service | installing index service =>
      rw [pc] at fits untouched
      exact ⟨owns_later later fits.1 (untouched index rfl fits.1.2.2),
        later.namespaces service _ fits.2⟩
  | counting | storing =>
      rw [pc] at fits
      exact filled_later later fits
  | withdrawing =>
      rw [pc] at fits
      exact fits.elim
  | returned =>
      rw [pc] at fits
      obtain ⟨made, same, filled⟩ := fits
      exact ⟨made, same, filled_later later filled⟩

theorem reserved_owns {index : Nat} (fits : Fits system call)
    (holds : reserved call.pc = some index) : Owns system call index := by
  unfold Fits at fits
  cases pc : call.pc with
  | checking slot | creating slot =>
      rw [pc] at fits holds
      cases holds
      exact fits
  | starting slot | installing slot =>
      rw [pc] at fits holds
      cases holds
      exact fits.1
  | searching | comparing | fetching | placing | reserving | counting | storing | withdrawing
  | returned =>
      rw [pc] at holds
      cases holds

theorem goto_call {other : Nat} {found : Call} {pc : Pc}
    (here : (system.goto place call pc).calls[other]? = some found) :
    (other = place ∧ found = { call with pc := pc }) ∨
      (other ≠ place ∧ system.calls[other]? = some found) := by
  simp only [System.goto, List.getElem?_set] at here
  split at here
  · rename_i same
    split at here
    · cases here
      exact .inl ⟨same.symm, rfl⟩
    · cases here
  · rename_i different
    exact .inr ⟨fun same => different same.symm, here⟩

theorem goto_member {found : Call} {pc : Pc} (member : found ∈ (system.goto place call pc).calls) :
    found = { call with pc := pc } ∨
      ∃ other, other ≠ place ∧ system.calls[other]? = some found := by
  obtain ⟨other, here⟩ := List.mem_iff_getElem?.mp member
  rcases goto_call here with ⟨_, same⟩ | ⟨different, old⟩
  · exact .inl same
  · exact .inr ⟨other, different, old⟩

theorem goto_lagging (pc : Pc) (here : system.calls[place]? = some call) :
    lagging (system.goto place call pc) + (uncounted call.pc).toNat =
      lagging system + (uncounted pc).toNat := by
  obtain ⟨inside, found⟩ := List.getElem?_eq_some_iff.mp here
  simp only [lagging, System.goto, List.countP_set inside, found]
  have counts : uncounted call.pc = true →
      0 < system.calls.countP fun other => uncounted other.pc := by
    intro waits
    exact List.countP_pos_iff.mpr ⟨call, List.mem_of_getElem? here, waits⟩
  cases before : uncounted call.pc <;> cases later : uncounted pc <;> simp_all

theorem goto_keeps {pc : Pc} (here : system.calls[place]? = some call)
    (counts : uncounted pc = uncounted call.pc) :
    lagging (system.goto place call pc) = lagging system := by
  have balance := goto_lagging pc here
  rw [counts] at balance
  omega

end Frames

section Steps

variable {middle : System} {pc : Pc}

theorem goto_fits (tidy : Tidy system) (later : Later system middle)
    (calls : middle.calls = system.calls) (own : Fits middle { call with pc := pc })
    (untouched : ∀ other found index, other ≠ place → system.calls[other]? = some found →
      reserved found.pc = some index → system.manager.mServices index = none →
        middle.manager.mServices index = none) :
    ∀ found ∈ (middle.goto place call pc).calls, Fits (middle.goto place call pc) found := by
  intro found member
  rcases goto_member member with rfl | ⟨other, different, old⟩
  · exact own
  · rw [calls] at old
    have fits : Fits middle found := fits_later later
      (tidy.fits found (List.mem_of_getElem? old)) fun index =>
        untouched other found index different old
    exact fits

theorem goto_apart (tidy : Tidy system) (here : system.calls[place]? = some call)
    (calls : middle.calls = system.calls)
    (fresh : ∀ index, reserved pc = some index → reserved call.pc = some index ∨
      ∀ found ∈ system.calls, reserved found.pc ≠ some index)
    (first second : Nat) (left right : Call) (index : Nat)
    (atFirst : (middle.goto place call pc).calls[first]? = some left)
    (atSecond : (middle.goto place call pc).calls[second]? = some right)
    (mine : reserved left.pc = some index) (yours : reserved right.pc = some index) :
    first = second := by
  rcases goto_call atFirst with ⟨rfl, rfl⟩ | ⟨_, oldFirst⟩ <;>
    rcases goto_call atSecond with ⟨rfl, rfl⟩ | ⟨_, oldSecond⟩
  · rfl
  · rw [calls] at oldSecond
    rcases fresh index mine with same | none
    · exact tidy.apart _ _ _ _ index here oldSecond same yours
    · exact absurd yours (none right (List.mem_of_getElem? oldSecond))
  · rw [calls] at oldFirst
    rcases fresh index yours with same | none
    · exact tidy.apart _ _ _ _ index oldFirst here mine same
    · exact absurd mine (none left (List.mem_of_getElem? oldFirst))
  · rw [calls] at oldFirst oldSecond
    exact tidy.apart _ _ _ _ index oldFirst oldSecond mine yours

theorem goto_alone (tidy : Tidy system) (calls : middle.calls = system.calls)
    (fresh : storingPc pc = true → ∀ found ∈ system.calls, storingPc found.pc = false)
    (first second : Nat) (left right : Call)
    (atFirst : (middle.goto place call pc).calls[first]? = some left)
    (atSecond : (middle.goto place call pc).calls[second]? = some right)
    (mine : storingPc left.pc = true) (yours : storingPc right.pc = true) : first = second := by
  rcases goto_call atFirst with ⟨rfl, rfl⟩ | ⟨_, oldFirst⟩ <;>
    rcases goto_call atSecond with ⟨rfl, rfl⟩ | ⟨_, oldSecond⟩
  · rfl
  · rw [calls] at oldSecond
    have none := fresh mine right (List.mem_of_getElem? oldSecond)
    rw [yours] at none
    cases none
  · rw [calls] at oldFirst
    have none := fresh yours left (List.mem_of_getElem? oldFirst)
    rw [mine] at none
    cases none
  · rw [calls] at oldFirst oldSecond
    exact tidy.alone _ _ _ _ oldFirst oldSecond mine yours

theorem goto_next (tidy : Tidy system) (calls : middle.calls = system.calls)
    (counter : middle.manager.mServCounter = system.manager.mServCounter)
    (own : ∀ service value, pc = .storing service value →
      value = system.manager.mServCounter + 1) :
    ∀ found ∈ (middle.goto place call pc).calls, ∀ service value,
      found.pc = .storing service value → value = middle.manager.mServCounter + 1 := by
  intro found member service value isStoring
  rw [counter]
  rcases goto_member member with rfl | ⟨_, _, old⟩
  · exact own service value isStoring
  · rw [calls] at old
    exact tidy.next found (List.mem_of_getElem? old) service value isStoring

/-- A call that keeps its slot finds it again, the others' owners are where they were. -/
theorem goto_owner (calls : middle.calls = system.calls) {index : Nat}
    (here : system.calls[place]? = some call)
    (owner : ∃ found ∈ system.calls, reserved found.pc = some index)
    (keeps : reserved call.pc = some index → reserved pc = some index) :
    ∃ found ∈ (middle.goto place call pc).calls, reserved found.pc = some index := by
  obtain ⟨found, member, holds⟩ := owner
  obtain ⟨other, there⟩ := List.mem_iff_getElem?.mp member
  have inside := (List.getElem?_eq_some_iff.mp here).1
  by_cases same : other = place
  · subst same
    rw [here] at there
    cases there
    refine ⟨{ call with pc := pc }, List.mem_iff_getElem?.mpr ⟨other, ?_⟩, keeps holds⟩
    simp [System.goto, calls, inside]
  · refine ⟨found, List.mem_iff_getElem?.mpr ⟨other, ?_⟩, holds⟩
    simp only [System.goto, calls, List.getElem?_set_ne (Ne.symm same), there]

/-- A step that writes nothing to the table. -/
theorem goto_tidy (tidy : Tidy system) (here : system.calls[place]? = some call)
    (own : Fits system { call with pc := pc }) (reserves : reserved pc = reserved call.pc)
    (counts : uncounted pc = uncounted call.pc)
    (stores : storingPc pc = true → ∀ found ∈ system.calls, storingPc found.pc = false)
    (next : ∀ service value, pc = .storing service value →
      value = system.manager.mServCounter + 1) : Tidy (system.goto place call pc) := by
  refine ⟨goto_fits tidy (.refl system) rfl own fun _ _ _ _ _ _ empty => empty,
    goto_apart tidy here rfl fun index mine => .inl (reserves ▸ mine), tidy.single, tidy.named,
    fun index nmsp name empty => ?_, tidy.kept, goto_alone tidy rfl stores, ?_, ?_⟩
  · exact goto_owner rfl here (tidy.owned index nmsp name empty) fun mine => reserves ▸ mine
  · exact goto_next tidy rfl rfl next
  · rw [goto_keeps here counts]
    exact tidy.counted

/-- A call at such a place has no slot and nothing to count. -/
def passing : Pc → Bool
  | .searching _ | .comparing _ | .fetching _ | .placing _ | .reserving _ | .returned _ => true
  | _ => false

theorem passing_idle {pc : Pc} (isPassing : passing pc = true) :
    reserved pc = none ∧ uncounted pc = false ∧ storingPc pc = false := by
  cases pc <;> simp_all [passing, reserved, uncounted, storingPc]

theorem pass_tidy (tidy : Tidy system) (here : system.calls[place]? = some call)
    (own : Fits system { call with pc := pc }) (before : passing call.pc = true)
    (later : passing pc = true) : Tidy (system.goto place call pc) := by
  obtain ⟨noSlot, noCount, _⟩ := passing_idle before
  obtain ⟨noSlotLater, noCountLater, noStore⟩ := passing_idle later
  refine goto_tidy tidy here own (noSlotLater.trans noSlot.symm) (noCountLater.trans noCount.symm)
    (fun stores => ?_) fun service value same => ?_
  · rw [noStore] at stores
    cases stores
  · rw [same] at noStore
    cases noStore

end Steps

section Writes

theorem entered_tidy (tidy : Tidy system) (nmsp : String) :
    Tidy { system with calls := system.calls ++ [⟨nmsp, .searching 0⟩] } := by
  have older : ∀ {other : Nat} {found : Call},
      (system.calls ++ [⟨nmsp, .searching 0⟩])[other]? = some found →
      system.calls[other]? = some found ∨ found = ⟨nmsp, .searching 0⟩ := by
    intro other found here
    by_cases inside : other < system.calls.length
    · rw [List.getElem?_append_left inside] at here
      exact .inl here
    · rw [List.getElem?_append_right (Nat.le_of_not_lt inside)] at here
      exact .inr (List.mem_singleton.mp (List.mem_of_getElem? here))
  refine ⟨?_, ?_, tidy.single, tidy.named, ?_, tidy.kept, ?_, ?_, ?_⟩
  · intro found member
    rcases List.mem_append.mp member with old | new
    · exact tidy.fits found old
    · cases List.mem_singleton.mp new
      trivial
  · intro first second left right index atFirst atSecond mine yours
    rcases older atFirst with oldFirst | rfl
    · rcases older atSecond with oldSecond | rfl
      · exact tidy.apart _ _ _ _ index oldFirst oldSecond mine yours
      · cases yours
    · cases mine
  · intro index name named empty
    obtain ⟨owner, member, holds⟩ := tidy.owned index name named empty
    exact ⟨owner, List.mem_append_left _ member, holds⟩
  · intro first second left right atFirst atSecond mine yours
    rcases older atFirst with oldFirst | rfl
    · rcases older atSecond with oldSecond | rfl
      · exact tidy.alone _ _ _ _ oldFirst oldSecond mine yours
      · cases yours
    · cases mine
  · intro found member service value isStoring
    rcases List.mem_append.mp member with old | new
    · exact tidy.next found old service value isStoring
    · cases List.mem_singleton.mp new
      cases isStoring
  · simpa [lagging, uncounted] using tidy.counted

theorem reserved_tidy {index : Nat} (tidy : Tidy system) (here : system.calls[place]? = some call)
    (pc : call.pc = .reserving index) (noName : system.manager.mServiceNms index = none)
    (noService : system.manager.mServices index = none)
    (fresh : ∀ other < maxAsockServices, system.manager.mServiceNms other ≠ some call.nmsp) :
    Tidy ((system.setManager (system.manager.setName index (some call.nmsp))).goto place call
      (.checking index)) := by
  have fits := tidy.fits call (List.mem_of_getElem? here)
  simp only [Fits, pc] at fits
  let middle := system.setManager (system.manager.setName index (some call.nmsp))
  have own : middle.manager.mServiceNms index = some call.nmsp := Function.update_self ..
  have other : ∀ {slot}, slot ≠ index →
      middle.manager.mServiceNms slot = system.manager.mServiceNms slot := fun different =>
    Function.update_of_ne different ..
  have later : Later system middle := by
    refine ⟨fun slot nmsp name => ?_, fun _ _ held => held, fun _ _ made => made⟩
    have different : slot ≠ index := by
      rintro rfl
      rw [noName] at name
      cases name
    rw [other different]
    exact name
  have unowned : ∀ found ∈ system.calls, reserved found.pc ≠ some index := by
    intro found member holds
    have owns := reserved_owns (tidy.fits found member) holds
    cases noName.symm.trans owns.2.1
  refine ⟨goto_fits tidy later rfl ⟨fits, own, noService⟩ fun _ _ _ _ _ _ empty => empty,
    goto_apart tidy here rfl fun slot mine => .inr ?_, ?_, ?_, ?_, tidy.kept,
    goto_alone tidy rfl (fun impossible => by cases impossible), ?_, ?_⟩
  · cases mine
    exact unowned
  · intro left right nmsp insideLeft insideRight leftName rightName
    by_cases isLeft : left = index <;> by_cases isRight : right = index
    · rw [isLeft, isRight]
    · subst isLeft
      cases own.symm.trans leftName
      exact absurd ((other isRight).symm.trans rightName) (fresh right insideRight)
    · subst isRight
      cases own.symm.trans rightName
      exact absurd ((other isLeft).symm.trans leftName) (fresh left insideLeft)
    · exact tidy.single left right nmsp insideLeft insideRight ((other isLeft).symm.trans leftName)
        ((other isRight).symm.trans rightName)
  · intro slot service held
    obtain ⟨nmsp, name, made⟩ := tidy.named slot service held
    exact ⟨nmsp, later.names slot nmsp name, made⟩
  · intro slot nmsp name empty
    by_cases same : slot = index
    · subst same
      have inside := (List.getElem?_eq_some_iff.mp here).1
      refine ⟨{ call with pc := .checking slot }, List.mem_iff_getElem?.mpr ⟨place, ?_⟩, rfl⟩
      simp [System.goto, System.setManager, inside]
    · refine goto_owner rfl here (tidy.owned slot nmsp ((other same).symm.trans name) empty) ?_
      rw [pc]
      exact fun impossible => by cases impossible
  · exact goto_next tidy rfl rfl fun _ _ isStoring => by cases isStoring
  · have lag : lagging (middle.goto place call (.checking index)) = lagging system :=
      goto_keeps here (by rw [pc]; rfl)
    rw [lag]
    exact tidy.counted

theorem created_tidy {index : Nat} (tidy : Tidy system) (here : system.calls[place]? = some call)
    (pc : call.pc = .creating index) :
    let created : System := { system with
      namespaces := system.namespaces ++ [system.manager.mServiceNms index] }
    Tidy (created.goto place call (.starting index system.namespaces.length)) := by
  intro created
  have fits := tidy.fits call (List.mem_of_getElem? here)
  simp only [Fits, pc] at fits
  have later : Later system created := by
    refine ⟨fun _ _ name => name, fun _ _ held => held, fun service nmsp made => ?_⟩
    have inside := (List.getElem?_eq_some_iff.mp made).1
    simp only [created, List.getElem?_append_left inside, made]
  have made : Made created { call with pc := .starting index system.namespaces.length }
      system.namespaces.length := by
    simp [Made, created, fits.2.1]
  refine ⟨goto_fits tidy later rfl ⟨fits, made⟩ fun _ _ _ _ _ _ empty => empty,
    goto_apart tidy here rfl fun slot mine => .inl ?_, tidy.single, ?_, ?_, tidy.kept,
    goto_alone tidy rfl (fun impossible => by cases impossible), ?_, ?_⟩
  · rw [pc]
    exact mine
  · intro slot service held
    obtain ⟨nmsp, name, known⟩ := tidy.named slot service held
    exact ⟨nmsp, name, later.namespaces service _ known⟩
  · intro slot nmsp name empty
    refine goto_owner rfl here (tidy.owned slot nmsp name empty) ?_
    rw [pc]
    exact fun mine => mine
  · exact goto_next tidy rfl rfl fun _ _ isStoring => by cases isStoring
  · have lag : lagging (created.goto place call (.starting index system.namespaces.length)) =
        lagging system := goto_keeps here (by rw [pc]; rfl)
    rw [lag]
    exact tidy.counted

theorem range_install {services : Nat → Option ServiceRef} {index : Nat} (service : ServiceRef)
    (empty : services index = none) (bound : Nat) :
    (List.range bound).countP (fun slot =>
      (Function.update services index (some service) slot).isSome) =
    (List.range bound).countP (fun slot => (services slot).isSome) +
      if index < bound then 1 else 0 := by
  induction bound with
  | zero => rfl
  | succ bound ih =>
      simp only [List.range_succ, List.countP_append, List.countP_singleton, ih]
      by_cases same : bound = index
      · subst same
        simp [empty]
      · rw [Function.update_of_ne same]
        have bounds : index < bound + 1 ↔ index < bound := by omega
        simp only [bounds]
        omega

theorem installed_tidy {index : Nat} {service : ServiceRef} (tidy : Tidy system)
    (here : system.calls[place]? = some call) (pc : call.pc = .installing index service) :
    let installed : System := { system with
      manager := system.manager.setService index service
      installs := system.installs ++ [⟨index, service⟩] }
    Tidy (installed.goto place call (.counting service)) := by
  intro installed
  have fits := tidy.fits call (List.mem_of_getElem? here)
  simp only [Fits, pc] at fits
  obtain ⟨⟨inside, name, empty⟩, made⟩ := fits
  have own : installed.manager.mServices index = some service := Function.update_self ..
  have other : ∀ {slot}, slot ≠ index →
      installed.manager.mServices slot = system.manager.mServices slot := fun different =>
    Function.update_of_ne different ..
  have later : Later system installed := by
    refine ⟨fun _ _ held => held, fun slot stored held => ?_, fun _ _ known => known⟩
    have different : slot ≠ index := by
      rintro rfl
      rw [empty] at held
      cases held
    rw [other different]
    exact held
  refine ⟨goto_fits tidy later rfl ⟨index, inside, own, name⟩ ?_,
    goto_apart tidy here rfl (fun slot mine => by cases mine), tidy.single, ?_, ?_, ?_,
    goto_alone tidy rfl (fun impossible => by cases impossible), ?_, ?_⟩
  · -- The slot belongs to this call alone.
    intro someone found slot different there holds vacant
    have elsewhere : slot ≠ index := by
      rintro rfl
      exact different (tidy.apart _ _ _ _ slot there here holds (by rw [pc]; rfl))
    rw [other elsewhere]
    exact vacant
  · intro slot stored held
    by_cases same : slot = index
    · subst same
      cases own.symm.trans held
      exact ⟨call.nmsp, name, made⟩
    · exact tidy.named slot stored ((other same).symm.trans held)
  · intro slot nmsp named vacant
    have different : slot ≠ index := by
      rintro rfl
      cases own.symm.trans vacant
    refine goto_owner rfl here (tidy.owned slot nmsp named ((other different).symm.trans vacant)) ?_
    rw [pc]
    intro mine
    cases mine
    exact absurd rfl different
  · intro install member
    rcases List.mem_append.mp member with old | new
    · exact later.services _ _ (tidy.kept install old)
    · cases List.mem_singleton.mp new
      exact own
  · exact goto_next tidy rfl rfl fun _ _ isStoring => by cases isStoring
  · have balance : lagging (installed.goto place call (.counting service)) +
        (uncounted call.pc).toNat = lagging system + (uncounted (.counting service)).toNat :=
      goto_lagging (.counting service) here
    have more : occupied installed.manager = occupied system.manager + 1 := by
      simpa only [occupied, installed, Manager.setService, inside, if_true] using
        range_install service empty maxAsockServices
    have total := tidy.counted
    rw [pc] at balance
    simp only [uncounted, Bool.toNat_false, Bool.toNat_true] at balance
    have count : ((installed.goto place call (.counting service)).manager.mServCounter) =
        system.manager.mServCounter := rfl
    have same : occupied (installed.goto place call (.counting service)).manager =
        occupied installed.manager := rfl
    rw [count, same, more]
    omega

theorem counted_tidy {service : ServiceRef} {value : Int} (tidy : Tidy system)
    (here : system.calls[place]? = some call) (pc : call.pc = .storing service value) :
    Tidy ((system.setManager { system.manager with mServCounter := value }).goto place call
      (.returned (some service))) := by
  let middle := system.setManager { system.manager with mServCounter := value }
  have member := List.mem_of_getElem? here
  have fits := tidy.fits call member
  simp only [Fits, pc] at fits
  refine ⟨goto_fits tidy ⟨fun _ _ name => name, fun _ _ held => held, fun _ _ made => made⟩ rfl
      ⟨service, rfl, fits⟩ (fun _ _ _ _ _ _ empty => empty),
    goto_apart tidy here rfl (fun slot mine => by cases mine), tidy.single, tidy.named, ?_,
    tidy.kept, goto_alone tidy rfl (fun impossible => by cases impossible), ?_, ?_⟩
  · intro slot nmsp name empty
    refine goto_owner rfl here (tidy.owned slot nmsp name empty) ?_
    rw [pc]
    exact fun impossible => by cases impossible
  · -- No other call was about to write the counter.
    intro found others stored next isStoring
    rcases goto_member others with rfl | ⟨other, different, old⟩
    · cases isStoring
    · exact absurd (tidy.alone _ _ _ _ old here (by rw [isStoring]; rfl) (by rw [pc]; rfl)) different
  · have balance : lagging (middle.goto place call (.returned (some service))) +
        (uncounted call.pc).toNat = lagging system + (uncounted (.returned (some service))).toNat :=
      goto_lagging (.returned (some service)) here
    have total := tidy.counted
    have next := tidy.next call member service value pc
    rw [pc] at balance
    simp only [uncounted, Bool.toNat_false, Bool.toNat_true] at balance
    have level : value + (lagging (middle.goto place call (.returned (some service))) : Int) =
        occupied system.manager := by omega
    exact level

end Writes

section Runs

theorem turn_tidy (tidy : Tidy system) (here : system.calls[place]? = some call)
    (clear : Clear system call) (turned : turn system place call true = some after) :
    Tidy after := by
  have fits := tidy.fits call (List.mem_of_getElem? here)
  unfold turn at turned
  simp only [Fits, Clear] at fits clear
  have silent : ∀ {next : Pc}, passing next = true → passing call.pc = true →
      Fits system { call with pc := next } → Tidy (system.goto place call next) :=
    fun later before own => pass_tidy tidy here own before later
  cases pc : call.pc with
  | searching index =>
      simp only [pc] at turned silent
      split at turned
      · rename_i inside
        split at turned <;> cases turned
        · exact silent rfl rfl trivial
        · exact silent rfl rfl inside
      · cases turned
        exact silent rfl rfl trivial
  | comparing index =>
      simp only [pc] at turned silent fits
      split at turned
      · cases turned
      · rename_i name named
        split at turned <;> cases turned
        · rename_i same
          exact silent rfl rfl ⟨fits, same ▸ named⟩
        · exact silent rfl rfl trivial
  | fetching index =>
      simp only [pc] at turned silent fits clear
      cases turned
      cases held : system.manager.mServices index with
      | none =>
          -- an empty service under the name belongs to a call that `clear` rules out
          obtain ⟨owner, member, holds⟩ := tidy.owned index call.nmsp fits.2 held
          exact absurd holds (clear owner member)
      | some service => exact silent rfl rfl ⟨service, rfl, index, fits.1, held, fits.2⟩
  | placing index =>
      simp only [pc] at turned silent clear
      rw [if_pos clear] at turned
      split at turned <;> cases turned
      · exact silent rfl rfl clear
      · exact silent rfl rfl trivial
  | reserving index =>
      simp only [pc] at turned clear
      cases turned
      exact reserved_tidy tidy here pc clear.1 clear.2.1 clear.2.2
  | checking index =>
      simp only [pc] at turned fits
      rw [fits.2.1] at turned
      cases turned
      exact goto_tidy tidy here fits (by rw [pc]; rfl) (by rw [pc]; rfl)
        (fun impossible => by cases impossible) fun _ _ impossible => by cases impossible
  | creating index =>
      simp only [pc, if_true] at turned
      cases turned
      exact created_tidy tidy here pc
  | starting index service =>
      simp only [pc, if_true] at turned fits
      cases turned
      exact goto_tidy tidy here fits (by rw [pc]; rfl) (by rw [pc]; rfl)
        (fun impossible => by cases impossible) fun _ _ impossible => by cases impossible
  | installing index service =>
      simp only [pc] at turned
      cases turned
      exact installed_tidy tidy here pc
  | counting service =>
      simp only [pc] at turned fits clear
      cases turned
      refine goto_tidy tidy here fits (by rw [pc]; rfl) (by rw [pc]; rfl) (fun _ => clear) ?_
      intro stored value same
      cases same
      rfl
  | storing service value =>
      simp only [pc] at turned
      cases turned
      exact counted_tidy tidy here pc
  | withdrawing index =>
      simp only [pc] at fits
  | returned service =>
      simp only [pc] at turned
      cases turned

theorem step_tidy {label : Label} (tidy : Tidy system) (separate : Separate system label)
    (stepped : step system label = some after) : Tidy after := by
  cases label with
  | enter nmsp =>
      cases stepped
      exact entered_tidy tidy nmsp
  | turn place granted =>
      obtain ⟨rfl, clear⟩ := separate
      obtain ⟨call, here, turned⟩ := Option.bind_eq_some_iff.mp stepped
      exact turn_tidy tidy here (clear call here) turned

theorem init_tidy : Tidy System.init := by
  refine ⟨?_, ?_, ?_, ?_, ?_, ?_, ?_, ?_, rfl⟩
  · intro call member
    cases member
  · intro first second left right index atFirst
    simp [System.init] at atFirst
  · intro left right nmsp _ _ name
    cases name
  · intro index service held
    cases held
  · intro index nmsp name
    cases name
  · intro install member
    cases member
  · intro first second left right atFirst
    simp [System.init] at atFirst
  · intro call member
    cases member

theorem runs_tidy (runs : GuardedRun step Separate .init system) : Tidy system :=
  runs.invariant Tidy (fun _ _ _ tidy separate stepped => step_tidy tidy separate stepped)
    init_tidy

theorem tidy_each (tidy : Tidy system) : OneEach system := by
  have found : ∀ call ∈ system.calls, ∀ service, call.pc = .returned service →
      ∃ made, service = some made ∧ Filled system call.nmsp made := by
    intro call member service isReturned
    have fits := tidy.fits call member
    simp only [Fits, isReturned] at fits
    exact fits
  constructor
  case same =>
    intro left inLeft right inRight first second isFirst isSecond same
    obtain ⟨made, rfl, slot, inside, held, name⟩ := found left inLeft first isFirst
    obtain ⟨other, rfl, place, within, stored, named⟩ := found right inRight second isSecond
    have equal := tidy.single slot place left.nmsp inside within name (same ▸ named)
    subst equal
    rw [held] at stored
    exact ⟨stored, fun impossible => by cases impossible⟩
  case apart =>
    intro left inLeft right inRight first second isFirst isSecond different same
    obtain ⟨made, rfl, slot, _, held, name⟩ := found left inLeft first isFirst
    obtain ⟨other, rfl, place, _, stored, named⟩ := found right inRight second isSecond
    cases same
    -- The service was created for one namespace.
    obtain ⟨one, hasOne, madeOne⟩ := tidy.named slot made held
    obtain ⟨two, hasTwo, madeTwo⟩ := tidy.named place made stored
    cases madeOne.symm.trans madeTwo
    have names : some left.nmsp = some right.nmsp :=
      name.symm.trans (hasOne.trans (hasTwo.symm.trans named))
    exact different (Option.some.inj names)
  case kept => exact tidy.kept
  case counted =>
    intro settled
    have nobody : lagging system = 0 := List.countP_eq_zero.mpr fun call member => by
      simp [settled call member]
    have total := tidy.counted
    rw [nobody] at total
    simpa using total

end Runs

section Serial

def hasReturned : Pc → Bool
  | .returned _ => true
  | _ => false

/-- The namespace has a slot or there is one left for it. -/
def Room (system : System) (nmsp : String) : Prop :=
  (∃ index < maxAsockServices, system.manager.mServiceNms index = some nmsp) ∨
    ∃ index < maxAsockServices, system.manager.mServices index = none

/-- A call begins only when every earlier one has returned. -/
def Serial (system : System) : Label → Prop
  | .enter nmsp => (∀ call ∈ system.calls, hasReturned call.pc = true) ∧ Room system nmsp
  | .turn _ granted => granted = true

/-- What a call that nobody disturbs has found out. -/
def Looked (system : System) (call : Call) : Prop :=
  match call.pc with
  | .searching index | .comparing index =>
      (∀ slot < index, system.manager.mServiceNms slot ≠ some call.nmsp) ∧ Room system call.nmsp
  | .placing index =>
      (∀ slot < maxAsockServices, system.manager.mServiceNms slot ≠ some call.nmsp) ∧
      (∀ slot < index, system.manager.mServices slot ≠ none) ∧
      ∃ slot < maxAsockServices, system.manager.mServices slot = none
  | .reserving index =>
      (∀ slot < maxAsockServices, system.manager.mServiceNms slot ≠ some call.nmsp) ∧
      system.manager.mServices index = none
  | _ => True

structure Lone (system : System) : Prop where
  one : ∀ (first second : Nat) (left right : Call), system.calls[first]? = some left →
    system.calls[second]? = some right → hasReturned left.pc = false →
      hasReturned right.pc = false → first = second
  looked : ∀ call ∈ system.calls, Looked system call

theorem returned_looked (isReturned : hasReturned call.pc = true) : Looked system call := by
  unfold Looked
  cases pc : call.pc <;> simp_all [hasReturned]

theorem returned_idle {pc : Pc} (isReturned : hasReturned pc = true) :
    reserved pc = none ∧ storingPc pc = false := by
  cases pc <;> simp_all [hasReturned, reserved, storingPc]

theorem lone_others (lone : Lone system) (here : system.calls[place]? = some call)
    (active : hasReturned call.pc = false) {other : Nat} {found : Call} (different : other ≠ place)
    (there : system.calls[other]? = some found) : hasReturned found.pc = true := by
  cases isReturned : hasReturned found.pc with
  | true => rfl
  | false => exact absurd (lone.one other place found call there here isReturned active) different

theorem goto_lone {middle : System} {pc : Pc} (lone : Lone system)
    (here : system.calls[place]? = some call) (active : hasReturned call.pc = false)
    (calls : middle.calls = system.calls) (own : Looked middle { call with pc := pc }) :
    Lone (middle.goto place call pc) := by
  constructor
  · intro first second left right atFirst atSecond mine yours
    rcases goto_call atFirst with ⟨rfl, rfl⟩ | ⟨different, old⟩
    · rcases goto_call atSecond with ⟨rfl, rfl⟩ | ⟨different, old⟩
      · rfl
      · rw [calls] at old
        rw [lone_others lone here active different old] at yours
        cases yours
    · rw [calls] at old
      rw [lone_others lone here active different old] at mine
      cases mine
  · intro found member
    rcases goto_member member with rfl | ⟨other, different, old⟩
    · exact own
    · rw [calls] at old
      exact returned_looked (lone_others lone here active different old)

/-- Undisturbed, a call finds its namespace if it has a slot and a free slot otherwise. -/
theorem lone_clear (tidy : Tidy system) (lone : Lone system)
    (here : system.calls[place]? = some call) : Clear system call := by
  have looked := lone.looked call (List.mem_of_getElem? here)
  have others : hasReturned call.pc = false → reserved call.pc = none →
      ∀ other ∈ system.calls, reserved other.pc = none := by
    intro active noSlot other member
    obtain ⟨position, there⟩ := List.mem_iff_getElem?.mp member
    by_cases same : position = place
    · subst same
      rw [here] at there
      cases there
      exact noSlot
    · exact (returned_idle (lone_others lone here active same there)).1
  unfold Clear
  cases pc : call.pc with
  | fetching index =>
      intro other member holds
      rw [others (by rw [pc]; rfl) (by rw [pc]; rfl) other member] at holds
      cases holds
  | reserving index =>
      simp only [Looked, pc] at looked
      refine ⟨?_, looked.2, looked.1⟩
      cases name : system.manager.mServiceNms index with
      | none => rfl
      | some nmsp =>
          obtain ⟨owner, member, holds⟩ := tidy.owned index nmsp name looked.2
          rw [others (by rw [pc]; rfl) (by rw [pc]; rfl) owner member] at holds
          cases holds
  | counting service =>
      intro other member
      obtain ⟨position, there⟩ := List.mem_iff_getElem?.mp member
      by_cases same : position = place
      · subst same
        rw [here] at there
        cases there
        rw [pc]
        rfl
      · exact (returned_idle (lone_others lone here (by rw [pc]; rfl) same there)).2
  | placing index =>
      simp only [Looked, pc] at looked
      obtain ⟨_, taken, slot, inside, free⟩ := looked
      have behind : index ≤ slot := Nat.le_of_not_lt fun before => taken slot before free
      exact Nat.lt_of_le_of_lt behind inside
  | searching | comparing | checking | creating | starting | installing | storing | withdrawing
  | returned => trivial

theorem turn_lone (tidy : Tidy system) (lone : Lone system)
    (here : system.calls[place]? = some call) (turned : turn system place call true = some after) :
    Lone after := by
  have looked := lone.looked call (List.mem_of_getElem? here)
  have fits := tidy.fits call (List.mem_of_getElem? here)
  have goes : ∀ {next : Pc}, hasReturned call.pc = false →
      Looked system { call with pc := next } → Lone (system.goto place call next) :=
    fun active own => goto_lone lone here active rfl own
  have extend : ∀ {index : Nat} {held : Nat → Prop}, (∀ slot < index, held slot) → held index →
      ∀ slot < index + 1, held slot := by
    intro index held before last slot inside
    rcases Nat.lt_succ_iff_lt_or_eq.mp inside with earlier | rfl
    · exact before slot earlier
    · exact last
  unfold turn at turned
  simp only [Looked, Fits] at looked fits
  cases pc : call.pc with
  | searching index =>
      simp only [pc] at turned looked goes
      split at turned
      · split at turned <;> cases turned
        · rename_i inside empty
          refine goes rfl ⟨extend looked.1 ?_, looked.2⟩
          rw [empty]
          exact fun impossible => by cases impossible
        · exact goes rfl looked
      · rename_i finished
        cases turned
        -- the whole table has been searched, so a free slot is what is left of `Room`
        have absent : ∀ slot < maxAsockServices,
            system.manager.mServiceNms slot ≠ some call.nmsp := fun slot inside =>
          looked.1 slot (Nat.lt_of_lt_of_le inside (Nat.le_of_not_lt finished))
        refine goes rfl ⟨absent, fun slot impossible => absurd impossible (Nat.not_lt_zero slot), ?_⟩
        rcases looked.2 with ⟨slot, inside, name⟩ | free
        · exact absurd name (absent slot inside)
        · exact free
  | comparing index =>
      simp only [pc] at turned looked goes
      split at turned
      · cases turned
      · rename_i name named
        split at turned <;> cases turned
        · exact goes rfl trivial
        · rename_i different
          refine goes rfl ⟨extend looked.1 ?_, looked.2⟩
          rw [named]
          exact fun same => different (Option.some.inj same)
  | placing index =>
      simp only [pc] at turned looked goes
      split at turned
      · split at turned <;> cases turned
        · rename_i empty
          exact goes rfl ⟨looked.1, empty⟩
        · rename_i held
          refine goes rfl ⟨looked.1, extend looked.2.1 ?_, looked.2.2⟩
          rw [held]
          exact fun impossible => by cases impossible
      · cases turned
        exact goes rfl trivial
  | checking index =>
      simp only [pc] at turned goes
      split at turned <;> cases turned <;> exact goes rfl trivial
  | fetching | counting =>
      simp only [pc] at turned goes
      cases turned
      exact goes rfl trivial
  | starting =>
      simp only [pc, if_true] at turned goes
      cases turned
      exact goes rfl trivial
  | reserving | installing | storing =>
      simp only [pc] at turned
      cases turned
      exact goto_lone lone here (by rw [pc]; rfl) rfl trivial
  | creating =>
      simp only [pc, if_true] at turned
      cases turned
      exact goto_lone lone here (by rw [pc]; rfl) rfl trivial
  | withdrawing =>
      simp only [pc] at fits
  | returned =>
      simp only [pc] at turned
      cases turned

theorem entered_lone {nmsp : String} (quiet : ∀ call ∈ system.calls, hasReturned call.pc = true)
    (room : Room system nmsp) :
    Lone { system with calls := system.calls ++ [⟨nmsp, .searching 0⟩] } := by
  have last : ∀ {other : Nat} {found : Call},
      (system.calls ++ [⟨nmsp, .searching 0⟩])[other]? = some found →
      hasReturned found.pc = false → other = system.calls.length := by
    intro other found here active
    rcases Nat.lt_trichotomy other system.calls.length with inside | same | beyond
    · rw [List.getElem?_append_left inside] at here
      rw [quiet found (List.mem_of_getElem? here)] at active
      cases active
    · exact same
    · have outside : (system.calls ++ [(⟨nmsp, .searching 0⟩ : Call)]).length ≤ other := by
        simp only [List.length_append, List.length_singleton]
        omega
      rw [List.getElem?_eq_none outside] at here
      cases here
  constructor
  · intro first second left right atFirst atSecond mine yours
    rw [last atFirst mine, last atSecond yours]
  · intro call member
    rcases List.mem_append.mp member with old | new
    · exact returned_looked (quiet call old)
    · cases List.mem_singleton.mp new
      exact ⟨fun slot impossible => absurd impossible (Nat.not_lt_zero slot), room⟩

/-- Calls one after the other keep apart. -/
theorem serial_separate (runs : GuardedRun step Serial .init system) :
    GuardedRun step Separate .init system ∧ Lone system := by
  induction runs with
  | refl =>
      refine ⟨.refl, ?_, ?_⟩
      · intro first second left right atFirst
        simp [System.init] at atFirst
      · intro call member
        cases member
  | @next middle last label _ serial stepped ih =>
      obtain ⟨separately, lone⟩ := ih
      have tidy := runs_tidy separately
      cases label with
      | enter nmsp =>
          have separate : Separate middle (.enter nmsp) := trivial
          refine ⟨.next _ separately separate stepped, ?_⟩
          cases stepped
          exact entered_lone serial.1 serial.2
      | turn place granted =>
          obtain rfl := serial
          have separate : Separate middle (.turn place true) :=
            ⟨rfl, fun call here => lone_clear tidy lone here⟩
          obtain ⟨call, here, turned⟩ := Option.bind_eq_some_iff.mp stepped
          exact ⟨.next _ separately separate stepped, turn_lone tidy lone here turned⟩

theorem serial_calls_each (runs : GuardedRun step Serial .init system) : OneEach system :=
  tidy_each (runs_tidy (serial_separate runs).1)

end Serial

section Results

/-- While the steps of the calls keep apart there is one service for each namespace. -/
theorem one_service_each (system : System) (runs : GuardedRun step Separate .init system) :
    OneEach system :=
  tidy_each (runs_tidy runs)

/-- The next `count` steps of a call. -/
def turns (place count : Nat) : List Label := List.replicate count (.turn place true)

/-- A second call for the namespace finds the name while the service is being created. -/
def halfFilled : List Label :=
  [.enter "blue"] ++ turns 0 13 ++ [.enter "blue"] ++ turns 1 3

/-- A second call, for another namespace, finds the same slot free. -/
def sameSlot : List Label :=
  [.enter "blue", .enter "red"] ++ turns 0 12 ++ turns 1 12 ++ turns 0 7 ++ turns 1 7

-- Every creation succeeds; one caller gets `NULL`, or one service replaces the other in its slot.
theorem overlapping_calls_clash :
    (∃ system, GuardedRun step Succeeding .init system ∧ ¬ OneEach system ∧
      ⟨"blue", .returned none⟩ ∈ system.calls) ∧
    ∃ system, GuardedRun step Succeeding .init system ∧ ¬ OneEach system ∧
      system.calls = [⟨"blue", .returned (some 0)⟩, ⟨"red", .returned (some 1)⟩] ∧
      system.manager.mServices 0 = some 1 ∧ system.manager.mServCounter = 2 ∧
      occupied system.manager = 1 := by
  constructor
  · obtain ⟨system, run, tested⟩ := replayed step Succeeding .init halfFilled
      (fun system => ⟨"blue", .returned none⟩ ∈ system.calls) (by decide +kernel)
    have member := of_decide_eq_true tested
    refine ⟨system, run, fun each => ?_, member⟩
    exact (each.same _ member _ member none none rfl rfl rfl).2 rfl
  · obtain ⟨system, run, tested⟩ := replayed step Succeeding .init sameSlot
      (fun system => system.calls = [⟨"blue", .returned (some 0)⟩, ⟨"red", .returned (some 1)⟩] ∧
        system.installs = [⟨0, 0⟩, ⟨0, 1⟩] ∧ system.manager.mServices 0 = some 1 ∧
        system.manager.mServCounter = 2 ∧ occupied system.manager = 1) (by decide +kernel)
    obtain ⟨calls, installs, held, counter, count⟩ := of_decide_eq_true tested
    refine ⟨system, run, fun each => ?_, calls, held, counter, count⟩
    have first := each.kept ⟨0, 0⟩ (by simp [installs])
    rw [held] at first
    cases first

-- Calls one after the other, two of them for one namespace.
theorem serial_calls_agree : ∃ system, GuardedRun step Separate .init system ∧
    system.calls = [⟨"blue", .returned (some 0)⟩, ⟨"red", .returned (some 1)⟩,
      ⟨"blue", .returned (some 0)⟩] ∧ OneEach system := by
  obtain ⟨system, run, tested⟩ := replayed step Separate .init
    ([.enter "blue"] ++ turns 0 19 ++ [.enter "red"] ++ turns 1 21 ++ [.enter "blue"] ++ turns 2 3)
    (fun system => system.calls = [⟨"blue", .returned (some 0)⟩, ⟨"red", .returned (some 1)⟩,
      ⟨"blue", .returned (some 0)⟩]) (by decide +kernel)
  exact ⟨system, run, of_decide_eq_true tested, one_service_each system run⟩

end Results

end Libasock.NamespaceServices
