import Libasock.LockedObjects

/-!
Runs of a locked object. `linearized` is the result: every interleaving of the
calls on any threads is explained by one order of calls, and `owner_leaves` adds
that the thread with the lock comes to its end by its own statements alone.
-/

namespace Libasock.LockedObjects
open GuardedRuns

variable {Thread Memory Call Frame Reply Abstract View : Type}

section Numbers
variable {program : Program Memory Call Frame Reply}
  {world next : World Thread Memory Call Frame Reply} {label : Label Thread Call}

/-- No two calls under way have one ticket, and the next ticket is new. -/
structure Numbered (world : World Thread Memory Call Frame Reply) : Prop where
  asked : ∀ ticket call, Event.called ticket call ∈ world.history → ticket < world.tickets
  used : ∀ thread ticket, (world.place thread).ticket = some ticket → ticket < world.tickets
  apart : ∀ left right ticket, (world.place left).ticket = some ticket →
    (world.place right).ticket = some ticket → left = right

theorem initial_numbered (memory : Memory) :
    Numbered (.initial memory : World Thread Memory Call Frame Reply) where
  asked := fun _ _ member => (List.not_mem_nil member).elim
  used := fun _ _ has => by cases has
  apart := fun _ _ _ has => by cases has

variable [DecidableEq Thread]

/-- A thread goes on with its ticket or gives it up. -/
theorem Numbered.keep (numbered : Numbered world) {thread : Thread}
    {place : Place Call Frame Reply} (places : next.place = (world.move thread place).place)
    (same : ∀ ticket, place.ticket = some ticket → (world.place thread).ticket = some ticket)
    (counter : next.tickets = world.tickets)
    (asked : ∀ ticket call, Event.called ticket call ∈ next.history →
      Event.called ticket call ∈ world.history) : Numbered next := by
  have had : ∀ other ticket, (next.place other).ticket = some ticket →
      (world.place other).ticket = some ticket := by
    intro other ticket has
    rw [places] at has
    by_cases here : other = thread
    · subst here
      rw [move_here] at has
      exact same ticket has
    · rw [move_there place here] at has
      exact has
  constructor
  case asked =>
    intro ticket call member
    rw [counter]
    exact numbered.asked ticket call (asked ticket call member)
  case used =>
    intro other ticket has
    rw [counter]
    exact numbered.used other ticket (had other ticket has)
  case apart =>
    intro left right ticket onLeft onRight
    exact numbered.apart left right ticket (had left ticket onLeft) (had right ticket onRight)

theorem Numbered.call (numbered : Numbered world) (thread : Thread) (call : Call) :
    Numbered { world.move thread (.called world.tickets call) with
      tickets := world.tickets + 1
      history := world.history ++ [.called world.tickets call] } := by
  have had : ∀ other ticket,
      ((world.move thread (.called world.tickets call)).place other).ticket = some ticket →
        (other = thread ∧ ticket = world.tickets) ∨
          (world.place other).ticket = some ticket := by
    intro other ticket has
    by_cases here : other = thread
    · subst here
      rw [move_here] at has
      exact .inl ⟨rfl, (Option.some.inj has).symm⟩
    · rw [move_there _ here] at has
      exact .inr has
  constructor
  case asked =>
    intro ticket asked member
    rcases List.mem_append.mp member with before | new
    · exact Nat.lt_succ_of_lt (numbered.asked ticket asked before)
    · cases List.mem_singleton.mp new
      exact Nat.lt_succ_self _
  case used =>
    intro other ticket has
    rcases had other ticket has with ⟨_, rfl⟩ | before
    · exact Nat.lt_succ_self _
    · exact Nat.lt_succ_of_lt (numbered.used other ticket before)
  case apart =>
    intro left right ticket onLeft onRight
    rcases had left ticket onLeft with ⟨rfl, new⟩ | before
    · rcases had right ticket onRight with ⟨rfl, _⟩ | old
      · rfl
      · exact (Nat.ne_of_lt (numbered.used right ticket old) new).elim
    · rcases had right ticket onRight with ⟨rfl, new⟩ | old
      · exact (Nat.ne_of_lt (numbered.used left ticket before) new).elim
      · exact numbered.apart left right ticket before old

theorem Numbered.moved (numbered : Numbered world) (moved : Moved program world label next) :
    Numbered next := by
  cases moved with
  | called thread call free => exact numbered.call thread call
  | acquired thread ticket call first waits unlocked enters =>
      exact numbered.keep rfl (fun _ has => waits ▸ has) rfl fun _ _ member => member
  | advanced thread ticket call frame after memory inside advances =>
      exact numbered.keep rfl (fun _ has => inside ▸ has) rfl fun _ _ member => member
  | released thread ticket call frame reply inside ended =>
      exact numbered.keep rfl (fun _ has => inside ▸ has) rfl fun _ _ member => member
  | looked thread ticket call reads waits looks =>
      exact numbered.keep rfl (fun _ has => waits ▸ has) rfl fun _ _ member => member
  | answered thread ticket reply leaves =>
      refine numbered.keep rfl (fun _ has => by cases has) rfl ?_
      intro other call member
      rcases List.mem_append.mp member with before | new
      · exact before
      · cases List.mem_singleton.mp new

end Numbers

section Runs

/-- What a thread's place says about the calls that have happened. -/
def Placed (lock : Option Thread) (history : List (Event Call Reply))
    (log : List (Done Call Reply)) (thread : Thread) : Place Call Frame Reply → Prop
  | .outside => True
  | .called ticket call => Event.called ticket call ∈ history ∧ ticket ∉ tickets log
  | .inside ticket call _ => lock = some thread ∧ Event.called ticket call ∈ history
  | .leaving ticket reply => ∃ call, ⟨ticket, call, reply⟩ ∈ log

theorem Placed.grown {lock held : Option Thread} {history longer : List (Event Call Reply)}
    {log further : List (Done Call Reply)} {thread : Thread} {place : Place Call Frame Reply}
    (placed : Placed lock history log thread place)
    (locks : lock = some thread → held = some thread) (lengthens : history ⊆ longer)
    (grows : log ⊆ further) (unused : ∀ ticket, place.ticket = some ticket →
      ticket ∉ tickets log → ticket ∉ tickets further) :
    Placed held longer further thread place := by
  cases place with
  | outside => trivial
  | called ticket call => exact ⟨lengthens placed.1, unused ticket rfl placed.2⟩
  | inside ticket call frame => exact ⟨locks placed.1, lengthens placed.2⟩
  | leaving ticket reply =>
      obtain ⟨call, happened⟩ := placed
      exact ⟨call, grows happened⟩

variable {program : Program Memory Call Frame Reply}
  {answers : Abstract → Call → Reply → Abstract → Prop} {admits : Memory → Call → Prop}
  {fits : Abstract → Memory → Prop} {decided : Frame → Bool} {seen : Memory → View}
  {world next : World Thread Memory Call Frame Reply} {label : Label Thread Call}
  {log : List (Done Call Reply)} {first now : Abstract}

variable (program answers fits decided seen) in
/-- An unlocked object fits; a locked one is in the hands of the call that has the lock. -/
structure Settled (world : World Thread Memory Call Frame Reply) (log : List (Done Call Reply))
    (now : Abstract) : Prop where
  free : world.lock = none → fits now world.memory
  held : ∀ thread, world.lock = some thread → ∃ ticket call frame,
    world.place thread = .inside ticket call frame ∧
      Owner program answers fits decided seen log now ticket call frame world.memory
  placed : ∀ thread, Placed world.lock world.history log thread (world.place thread)

theorem initial_settled {memory : Memory} (fit : fits now memory) :
    Settled program answers fits decided seen
      (.initial memory : World Thread Memory Call Frame Reply) [] now where
  free := fun _ => fit
  held := fun _ held => by cases held
  placed := fun _ => trivial

/-- Nothing has happened under a ticket nobody has called with. -/
theorem Linearizes.unused (ordering : Linearizes answers first world.history log now)
    (numbered : Numbered world) : world.tickets ∉ tickets log := by
  intro member
  obtain ⟨entry, happened, same⟩ := List.mem_map.mp member
  have below := numbered.asked _ _ (ordering.invoked entry happened)
  exact Nat.ne_of_lt below same

/-- Who runs statements has the lock. -/
theorem Settled.owner (settled : Settled program answers fits decided seen world log now)
    {thread : Thread} {ticket : Nat} {call : Call} {frame : Frame}
    (inside : world.place thread = .inside ticket call frame) :
    world.lock = some thread ∧ Event.called ticket call ∈ world.history ∧
      Owner program answers fits decided seen log now ticket call frame world.memory := by
  have placed := settled.placed thread
  rw [inside] at placed
  obtain ⟨other, asked, position, same, owns⟩ := settled.held thread placed.1
  rw [inside] at same
  cases same
  exact ⟨placed.1, placed.2, owns⟩

variable [DecidableEq Thread]

/-- A thread that is not under the lock moves. -/
theorem Settled.beside (settled : Settled program answers fits decided seen world log now)
    {thread : Thread} (place : Place Call Frame Reply)
    (elsewhere : ∀ ticket call frame, world.place thread ≠ .inside ticket call frame) :
    ∀ owner, world.lock = some owner → owner ≠ thread ∧ ∃ ticket call frame,
      world.place owner = .inside ticket call frame ∧
      (world.move thread place).place owner = .inside ticket call frame ∧
        Owner program answers fits decided seen log now ticket call frame world.memory := by
  intro owner held
  obtain ⟨ticket, call, frame, inside, owns⟩ := settled.held owner held
  have apart : owner ≠ thread := by
    rintro rfl
    exact elsewhere ticket call frame inside
  exact ⟨apart, ticket, call, frame, inside, (move_there place apart).trans inside, owns⟩

theorem Settled.held_still (settled : Settled program answers fits decided seen world log now)
    {thread : Thread} (place : Place Call Frame Reply)
    (elsewhere : ∀ ticket call frame, world.place thread ≠ .inside ticket call frame) :
    ∀ owner, world.lock = some owner → ∃ ticket call frame,
      (world.move thread place).place owner = .inside ticket call frame ∧
        Owner program answers fits decided seen log now ticket call frame world.memory := by
  intro owner held
  obtain ⟨_, ticket, call, frame, _, inside, owns⟩ := settled.beside place elsewhere owner held
  exact ⟨ticket, call, frame, inside, owns⟩

theorem placed_moved {lock : Option Thread} {history : List (Event Call Reply)} {thread : Thread}
    {place : Place Call Frame Reply} (here : Placed lock history log thread place)
    (there : ∀ other, other ≠ thread → Placed lock history log other (world.place other)) :
    ∀ other, Placed lock history log other ((world.move thread place).place other) := by
  intro other
  by_cases same : other = thread
  · subst same
    rw [move_here]
    exact here
  · rw [move_there place same]
    exact there other same

theorem Settled.call (settled : Settled program answers fits decided seen world log now)
    (fresh : world.tickets ∉ tickets log) {thread : Thread} (call : Call)
    (free : world.place thread = .outside) :
    Settled program answers fits decided seen
      { world.move thread (.called world.tickets call) with
        tickets := world.tickets + 1
        history := world.history ++ [.called world.tickets call] } log now where
  free := settled.free
  held := settled.held_still _ (by simp [free])
  placed := placed_moved ⟨by simp, fresh⟩ fun other _ => (settled.placed other).grown id
    (List.subset_append_left ..) (List.Subset.refl _) fun _ _ absent => absent

theorem Settled.answer (settled : Settled program answers fits decided seen world log now)
    {thread : Thread} {ticket : Nat} {reply : Reply}
    (leaves : world.place thread = .leaving ticket reply) :
    Settled program answers fits decided seen { world.move thread .outside with
      history := world.history ++ [.returned ticket reply] } log now where
  free := settled.free
  held := settled.held_still _ (by simp [leaves])
  placed := placed_moved trivial fun other _ => (settled.placed other).grown id
    (List.subset_append_left ..) (List.Subset.refl _) fun _ _ absent => absent

variable (sound : Sound program answers admits fits decided seen)
include sound

theorem Settled.acquire (settled : Settled program answers fits decided seen world log now)
    {thread : Thread} {ticket : Nat} {call : Call} {begins : Frame}
    (waits : world.place thread = .called ticket call) (unlocked : world.lock = none)
    (enters : program.entry call = .underLock begins) (allowed : admits world.memory call) :
    Settled program answers fits decided seen
      { world.move thread (.inside ticket call begins) with lock := some thread } log now := by
  have placed := settled.placed thread
  rw [waits] at placed
  have fit := settled.free unlocked
  obtain ⟨reply, after, later, ends, answered, fitsNext⟩ := sound.runs enters fit allowed
  constructor
  case free =>
    intro unlocks
    cases unlocks
  case held =>
    intro owner held
    cases held
    exact ⟨ticket, call, begins, move_here .., .before world.memory after reply later
      (sound.enters enters) placed.2 fit rfl ends answered fitsNext⟩
  case placed =>
    refine placed_moved ⟨rfl, placed.1⟩ fun other _ => (settled.placed other).grown ?_
      (List.Subset.refl _) (List.Subset.refl _) fun _ _ absent => absent
    intro held
    rw [unlocked] at held
    cases held

theorem Settled.release (settled : Settled program answers fits decided seen world log now)
    {thread : Thread} {ticket : Nat} {call : Call} {frame : Frame} {reply : Reply}
    (inside : world.place thread = .inside ticket call frame)
    (ended : program.finished frame = some reply) :
    Settled program answers fits decided seen
      { world.move thread (.leaving ticket reply) with lock := none } log now := by
  obtain ⟨locked, _, owns⟩ := settled.owner inside
  have late := (sound.stops ended).1
  cases owns with
  | before old after given later early => rw [early] at late; cases late
  | after last given _ happened fit same ends =>
      obtain ⟨rfl, rfl⟩ := sound.ends_finished ends ended
      constructor
      case free => exact fun _ => fit
      case held =>
        intro owner held
        cases held
      case placed =>
        refine placed_moved ⟨call, happened⟩ fun other apart => (settled.placed other).grown ?_
          (List.Subset.refl _) (List.Subset.refl _) fun _ _ absent => absent
        intro held
        rw [locked] at held
        exact (apart (Option.some.inj held).symm).elim

theorem Settled.advance (ordering : Linearizes answers first world.history log now)
    (settled : Settled program answers fits decided seen world log now) {thread : Thread}
    {ticket : Nat} {call : Call} {frame after : Frame} {memory : Memory}
    (numbered : Numbered world) (inside : world.place thread = .inside ticket call frame)
    (advances : program.advance frame world.memory = some (after, memory)) :
    ∃ further later, Linearizes answers first world.history further later ∧
      Settled program answers fits decided seen
        { world.move thread (.inside ticket call after) with memory := memory } further later := by
  obtain ⟨locked, asked, owns⟩ := settled.owner inside
  -- All that is left to show is what becomes of the call; the other threads do not move.
  have settles : ∀ further later, log ⊆ further →
      (∀ other, other ≠ ticket → other ∉ tickets log → other ∉ tickets further) →
      Owner program answers fits decided seen further later ticket call after memory →
      Settled program answers fits decided seen
        { world.move thread (.inside ticket call after) with memory := memory } further
        later := by
    intro further later grows unused owner
    constructor
    case free =>
      intro unlocked
      rw [show world.lock = none from unlocked] at locked
      cases locked
    case held =>
      intro holder held
      cases Option.some.inj (locked.symm.trans held)
      exact ⟨ticket, call, after, move_here .., owner⟩
    case placed =>
      refine placed_moved ⟨locked, asked⟩ fun other apart => (settled.placed other).grown id
        (List.Subset.refl _) grows ?_
      intro used has absent
      refine unused used ?_ absent
      rintro rfl
      exact apart (numbered.apart other thread used has (by rw [inside]; rfl))
  rcases sound.owner_advanced owns advances with stays | ⟨reply, later, absent, answered, happened⟩
  · exact ⟨log, now, ordering,
      settles log now (List.Subset.refl _) (fun _ _ absent => absent) stays⟩
  · refine ⟨_, later, ordering.happen absent asked answered,
      settles _ later (List.subset_append_left ..) ?_ happened⟩
    intro other different unused
    exact unused_append unused different

theorem Settled.look (ordering : Linearizes answers first world.history log now)
    (settled : Settled program answers fits decided seen world log now) {thread : Thread}
    {ticket : Nat} {call : Call} {reads : Memory → Reply} (numbered : Numbered world)
    (waits : world.place thread = .called ticket call)
    (looks : program.entry call = .look reads) :
    ∃ further, Linearizes answers first world.history further now ∧
      Settled program answers fits decided seen
        (world.move thread (.leaving ticket (reads world.memory))) further now := by
  have placed := settled.placed thread
  rw [waits] at placed
  obtain ⟨fitting, fit, same⟩ : ∃ fitting, fits now fitting ∧ seen world.memory = seen fitting := by
    cases holder : world.lock with
    | none => exact ⟨world.memory, settled.free holder, rfl⟩
    | some owner =>
        obtain ⟨_, _, _, _, owns⟩ := settled.held owner holder
        exact owns.sight
  have answered := sound.looks looks fit same
  refine ⟨_, ordering.happen placed.2 placed.1 answered, ⟨settled.free, ?_, ?_⟩⟩
  · intro owner held
    have elsewhere : ∀ ticket call frame, world.place thread ≠ .inside ticket call frame := by
      simp [waits]
    obtain ⟨apart, other, asked, frame, located, inside, owns⟩ :=
      settled.beside (.leaving ticket (reads world.memory)) elsewhere owner held
    refine ⟨other, asked, frame, inside, owns.other ?_⟩
    rintro rfl
    exact apart (numbered.apart owner thread ticket (by rw [located]; rfl) (by rw [waits]; rfl))
  · refine placed_moved ⟨call, by simp⟩ fun other apart => (settled.placed other).grown id
      (List.Subset.refl _) (List.subset_append_left ..) ?_
    intro used has absent
    refine unused_append absent ?_
    rintro rfl
    exact apart (numbered.apart other thread used has (by rw [waits]; rfl))

theorem Settled.moved (ordering : Linearizes answers first world.history log now)
    (settled : Settled program answers fits decided seen world log now)
    (numbered : Numbered world) (allowed : admitted admits world label)
    (moved : Moved program world label next) :
    ∃ further later, Linearizes answers first next.history further later ∧
      Settled program answers fits decided seen next further later := by
  cases moved with
  | called thread call free =>
      have fresh := ordering.unused numbered
      exact ⟨log, now, ordering.begin fresh, settled.call fresh call free⟩
  | acquired thread ticket call begins waits unlocked enters =>
      exact ⟨log, now, ordering,
        settled.acquire sound waits unlocked enters (allowed ticket call waits)⟩
  | advanced thread ticket call frame after memory inside advances =>
      exact settled.advance sound ordering numbered inside advances
  | released thread ticket call frame reply inside ended =>
      exact ⟨log, now, ordering, settled.release sound inside ended⟩
  | looked thread ticket call reads waits looks =>
      obtain ⟨further, explained, settles⟩ := settled.look sound ordering numbered waits looks
      exact ⟨further, now, explained, settles⟩
  | answered thread ticket reply leaves =>
      have placed := settled.placed thread
      rw [leaves] at placed
      obtain ⟨call, happened⟩ := placed
      exact ⟨log, now, ordering.return happened, settled.answer leaves⟩

-- Every history is explained by one order of calls.
theorem linearized {memory : Memory} (fit : fits first memory)
    (run : GuardedRun (step program) (admitted admits) (.initial memory) world) :
    ∃ log now, Linearizes answers first world.history log now ∧
      Settled program answers fits decided seen world log now := by
  -- The log is a ghost: it grows at the statement that decides a call, and at a look.
  have kept := run.invariant_with Numbered
    (fun world => ∃ log now, Linearizes answers first world.history log now ∧
      Settled program answers fits decided seen world log now) ?_ ?_ (initial_numbered memory)
    ⟨[], first, .nothing answers first, initial_settled fit⟩
  · exact kept.2
  · intro before label after numbered _ stepped
    exact numbered.moved (step_moved stepped)
  · rintro before label after numbered ⟨log, now, ordering, settled⟩ allowed stepped
    exact settled.moved sound ordering numbered allowed (step_moved stepped)

omit sound

/-- The statements of a call, and the release of the lock after the last one. -/
def goes (thread : Thread) (count : Nat) : List (Label Thread Call) :=
  List.replicate count (.advance thread) ++ [.release thread]

theorem ends_executed {frame : Frame} {memory after : Memory} {reply : Reply} {thread : Thread}
    {ticket : Nat} {call : Call} (ends : Ends program frame memory reply after)
    (inside : world.place thread = .inside ticket call frame) (same : world.memory = memory) :
    ∃ count later, exec (step program) world (goes thread count) = some later ∧
      later.lock = none ∧ later.memory = after ∧
      later.place thread = .leaving ticket reply := by
  induction ends generalizing world with
  | @here frame memory reply ended =>
      refine ⟨0, { world.move thread (.leaving ticket reply) with lock := none }, ?_, rfl, same,
        move_here ..⟩
      simp only [goes, List.replicate_zero, List.nil_append, exec, step, inside, ended,
        Option.map_some, Option.bind_some]
  | @later frame next memory middle after reply advances rest ih =>
      obtain ⟨count, later, plays, finishes⟩ :=
        @ih { world.move thread (.inside ticket call next) with memory := middle }
          (move_here ..) rfl
      refine ⟨count + 1, later, ?_, finishes⟩
      simp only [goes, List.replicate_succ, List.cons_append, exec, step, inside, same, advances,
        Option.map_some, Option.bind_some]
      exact plays

/-- The thread with the lock needs no other thread to come to its end. -/
theorem Settled.leaves (settled : Settled program answers fits decided seen world log now)
    {thread : Thread} (held : world.lock = some thread) :
    ∃ count later ticket reply, exec (step program) world (goes thread count) = some later ∧
      later.lock = none ∧ later.place thread = .leaving ticket reply := by
  obtain ⟨ticket, call, frame, inside, owns⟩ := settled.held thread held
  obtain ⟨reply, after, ends⟩ :
      ∃ reply after, Ends program frame world.memory reply after := by
    cases owns with
    | before old after reply next early absent fit same ends => exact ⟨reply, after, ends⟩
    | after last reply late happened fit same ends => exact ⟨reply, last, ends⟩
  obtain ⟨count, later, plays, unlocked, _, leaves⟩ := ends_executed ends inside rfl
  exact ⟨count, later, ticket, reply, plays, unlocked, leaves⟩

end Runs

end Libasock.LockedObjects
