import Libasock.GuardedRuns
import Mathlib.Data.List.Nodup
import Mathlib.Logic.Function.Basic

/-!
An object in shared memory with one lock, called from any number of threads. A
call runs its statements one at a time between acquiring and releasing the lock,
or it is one look at the memory without the lock. `Linearizes` asks that the
calls answer as if each of them happened at once, between its call and its
return; `linearized` gives that for every object whose calls are right when
nobody interferes and whose locked calls change what a look can see in one
statement. The module names no particular object.
-/

namespace Libasock.LockedObjects
open GuardedRuns

variable {Thread Memory Call Frame Reply Abstract View : Type}

section Machine

inductive Entry (Memory Frame Reply : Type) where
  | underLock (first : Frame)
  | look (reads : Memory → Reply)

/-- `advance` is the next statement, `none` where it is not defined or the call is over. -/
structure Program (Memory Call Frame Reply : Type) where
  entry : Call → Entry Memory Frame Reply
  advance : Frame → Memory → Option (Frame × Memory)
  finished : Frame → Option Reply

inductive Place (Call Frame Reply : Type) where
  | outside
  | called (ticket : Nat) (call : Call)
  | inside (ticket : Nat) (call : Call) (frame : Frame)
  | leaving (ticket : Nat) (reply : Reply)

def Place.ticket : Place Call Frame Reply → Option Nat
  | .outside => none
  | .called ticket _ | .inside ticket _ _ | .leaving ticket _ => some ticket

/-- What the callers see. Every call has a ticket of its own. -/
inductive Event (Call Reply : Type) where
  | called (ticket : Nat) (call : Call)
  | returned (ticket : Nat) (reply : Reply)
  deriving DecidableEq

structure World (Thread Memory Call Frame Reply : Type) where
  memory : Memory
  lock : Option Thread
  place : Thread → Place Call Frame Reply
  tickets : Nat
  history : List (Event Call Reply)

inductive Label (Thread Call : Type) where
  | call (thread : Thread) (call : Call)
  | acquire (thread : Thread)
  | advance (thread : Thread)
  | release (thread : Thread)
  | look (thread : Thread)
  | answer (thread : Thread)

def World.initial (memory : Memory) : World Thread Memory Call Frame Reply :=
  ⟨memory, none, fun _ => .outside, 0, []⟩

variable [DecidableEq Thread] (program : Program Memory Call Frame Reply)

def World.move (world : World Thread Memory Call Frame Reply) (thread : Thread)
    (place : Place Call Frame Reply) : World Thread Memory Call Frame Reply :=
  { world with place := Function.update world.place thread place }

def step (world : World Thread Memory Call Frame Reply) :
    Label Thread Call → Option (World Thread Memory Call Frame Reply)
  | .call thread call =>
      match world.place thread with
      | .outside =>
          some { world.move thread (.called world.tickets call) with
            tickets := world.tickets + 1
            history := world.history ++ [.called world.tickets call] }
      | _ => none
  | .acquire thread =>
      match world.lock, world.place thread with
      | none, .called ticket call =>
          match program.entry call with
          | .underLock first =>
              some { world.move thread (.inside ticket call first) with lock := some thread }
          | .look _ => none
      | _, _ => none
  | .advance thread =>
      match world.place thread with
      | .inside ticket call frame =>
          (program.advance frame world.memory).map fun next =>
            { world.move thread (.inside ticket call next.1) with memory := next.2 }
      | _ => none
  | .release thread =>
      match world.place thread with
      | .inside ticket _ frame =>
          (program.finished frame).map fun reply =>
            { world.move thread (.leaving ticket reply) with lock := none }
      | _ => none
  | .look thread =>
      match world.place thread with
      | .called ticket call =>
          match program.entry call with
          | .underLock _ => none
          | .look reads => some (world.move thread (.leaving ticket (reads world.memory)))
      | _ => none
  | .answer thread =>
      match world.place thread with
      | .leaving ticket reply =>
          some { world.move thread .outside with
            history := world.history ++ [.returned ticket reply] }
      | _ => none

inductive Moved (world : World Thread Memory Call Frame Reply) :
    Label Thread Call → World Thread Memory Call Frame Reply → Prop where
  | called (thread : Thread) (call : Call) (free : world.place thread = .outside) :
      Moved world (.call thread call) { world.move thread (.called world.tickets call) with
        tickets := world.tickets + 1
        history := world.history ++ [.called world.tickets call] }
  | acquired (thread : Thread) (ticket : Nat) (call : Call) (first : Frame)
      (waits : world.place thread = .called ticket call) (unlocked : world.lock = none)
      (enters : program.entry call = .underLock first) :
      Moved world (.acquire thread)
        { world.move thread (.inside ticket call first) with lock := some thread }
  | advanced (thread : Thread) (ticket : Nat) (call : Call) (frame next : Frame) (memory : Memory)
      (inside : world.place thread = .inside ticket call frame)
      (advances : program.advance frame world.memory = some (next, memory)) :
      Moved world (.advance thread)
        { world.move thread (.inside ticket call next) with memory := memory }
  | released (thread : Thread) (ticket : Nat) (call : Call) (frame : Frame) (reply : Reply)
      (inside : world.place thread = .inside ticket call frame)
      (ended : program.finished frame = some reply) :
      Moved world (.release thread)
        { world.move thread (.leaving ticket reply) with lock := none }
  | looked (thread : Thread) (ticket : Nat) (call : Call) (reads : Memory → Reply)
      (waits : world.place thread = .called ticket call)
      (looks : program.entry call = .look reads) :
      Moved world (.look thread) (world.move thread (.leaving ticket (reads world.memory)))
  | answered (thread : Thread) (ticket : Nat) (reply : Reply)
      (leaves : world.place thread = .leaving ticket reply) :
      Moved world (.answer thread) { world.move thread .outside with
        history := world.history ++ [.returned ticket reply] }

variable {program} {world next : World Thread Memory Call Frame Reply} {label : Label Thread Call}

theorem step_moved (stepped : step program world label = some next) :
    Moved program world label next := by
  cases label with
  | call thread call =>
      simp only [step] at stepped
      split at stepped
      · rename_i free
        cases stepped
        exact .called thread call free
      · cases stepped
  | acquire thread =>
      simp only [step] at stepped
      split at stepped
      · rename_i ticket call unlocked waits
        split at stepped
        · rename_i first enters
          cases stepped
          exact .acquired thread ticket call first waits unlocked enters
        · cases stepped
      · cases stepped
  | advance thread =>
      simp only [step] at stepped
      split at stepped
      · rename_i ticket call frame inside
        obtain ⟨⟨after, memory⟩, advances, rfl⟩ := Option.map_eq_some_iff.mp stepped
        exact .advanced thread ticket call frame after memory inside advances
      · cases stepped
  | release thread =>
      simp only [step] at stepped
      split at stepped
      · rename_i ticket call frame inside
        obtain ⟨reply, ended, rfl⟩ := Option.map_eq_some_iff.mp stepped
        exact .released thread ticket call frame reply inside ended
      · cases stepped
  | look thread =>
      simp only [step] at stepped
      split at stepped
      · rename_i ticket call waits
        split at stepped
        · cases stepped
        · rename_i reads looks
          cases stepped
          exact .looked thread ticket call reads waits looks
      · cases stepped
  | answer thread =>
      simp only [step] at stepped
      split at stepped
      · rename_i ticket reply leaves
        cases stepped
        exact .answered thread ticket reply leaves
      · cases stepped

@[simp] theorem move_here (thread : Thread) (place : Place Call Frame Reply) :
    (world.move thread place).place thread = place := Function.update_self ..

theorem move_there {thread other : Thread} (place : Place Call Frame Reply)
    (elsewhere : other ≠ thread) : (world.move thread place).place other = world.place other :=
  Function.update_of_ne elsewhere ..

end Machine

section Orders

/-- A call that has happened. -/
structure Done (Call Reply : Type) where
  ticket : Nat
  call : Call
  reply : Reply

inductive Plays (answers : Abstract → Call → Reply → Abstract → Prop) (first : Abstract) :
    List (Done Call Reply) → Abstract → Prop where
  | start : Plays answers first [] first
  | next {log : List (Done Call Reply)} {now next : Abstract} (ticket : Nat) {call : Call}
      {reply : Reply} (before : Plays answers first log now)
      (answered : answers now call reply next) :
      Plays answers first (log ++ [⟨ticket, call, reply⟩]) next

def tickets (log : List (Done Call Reply)) : List Nat := log.map Done.ticket

/-- One order of calls that explains a history: it plays the abstract object, has every call that
returned with its reply, and puts a call that returned before another began before that one. -/
structure Linearizes (answers : Abstract → Call → Reply → Abstract → Prop) (first : Abstract)
    (history : List (Event Call Reply)) (log : List (Done Call Reply)) (last : Abstract) :
    Prop where
  plays : Plays answers first log last
  once : (tickets log).Nodup
  invoked : ∀ entry ∈ log, Event.called entry.ticket entry.call ∈ history
  returned : ∀ ticket reply, Event.returned ticket reply ∈ history →
    ∃ call, ⟨ticket, call, reply⟩ ∈ log
  ordered : ∀ early reply late call,
    [Event.returned early reply, Event.called late call].Sublist history →
      late ∈ tickets log → [early, late].Sublist (tickets log)

theorem mem_tickets {log : List (Done Call Reply)} {ticket : Nat} {call : Call} {reply : Reply}
    (member : (⟨ticket, call, reply⟩ : Done Call Reply) ∈ log) : ticket ∈ tickets log :=
  List.mem_map.mpr ⟨_, member, rfl⟩

theorem tickets_append (log : List (Done Call Reply)) (entry : Done Call Reply) :
    tickets (log ++ [entry]) = tickets log ++ [entry.ticket] := by
  simp [tickets]

theorem unused_append {log : List (Done Call Reply)} {entry : Done Call Reply} {ticket : Nat}
    (absent : ticket ∉ tickets log) (different : ticket ≠ entry.ticket) :
    ticket ∉ tickets (log ++ [entry]) := by
  rw [tickets_append]
  intro member
  rcases List.mem_append.mp member with inLog | new
  · exact absent inLog
  · exact different (List.mem_singleton.mp new)

/-- A pair in order in a longer list was there, or its second part is the new one. -/
theorem pair_appended {Item : Type} {early late item : Item} {items : List Item}
    (pair : [early, late].Sublist (items ++ [item])) :
    [early, late].Sublist items ∨ (late = item ∧ early ∈ items) := by
  obtain ⟨front, back, split, inFront, inBack⟩ := List.sublist_append_iff.mp pair
  rcases List.sublist_singleton.mp inBack with rfl | rfl
  · rw [List.append_nil] at split
    subst split
    exact .inl inFront
  · have ends : [early] ++ [late] = front ++ [item] := split
    obtain ⟨rfl, same⟩ := List.append_inj' ends rfl
    exact .inr ⟨List.singleton_inj.mp same, List.singleton_sublist.mp inFront⟩

variable {answers : Abstract → Call → Reply → Abstract → Prop} {first now : Abstract}
  {history : List (Event Call Reply)} {log : List (Done Call Reply)}
  {ticket : Nat} {call : Call} {reply : Reply}

theorem Linearizes.nothing (answers : Abstract → Call → Reply → Abstract → Prop)
    (first : Abstract) : Linearizes answers first [] [] first where
  plays := .start
  once := List.nodup_nil
  invoked := fun _ member => (List.not_mem_nil member).elim
  returned := fun _ _ member => (List.not_mem_nil member).elim
  ordered := fun _ _ _ _ _ member => (List.not_mem_nil member).elim

/-- A call begins. Nothing has happened under its ticket. -/
theorem Linearizes.begin (ordering : Linearizes answers first history log now)
    (absent : ticket ∉ tickets log) :
    Linearizes answers first (history ++ [.called ticket call]) log now where
  plays := ordering.plays
  once := ordering.once
  invoked := fun entry member => List.mem_append_left _ (ordering.invoked entry member)
  returned := by
    intro other reply member
    rcases List.mem_append.mp member with before | new
    · exact ordering.returned other reply before
    · cases List.mem_singleton.mp new
  ordered := by
    intro early reply late asked pair member
    rcases pair_appended pair with before | ⟨new, _⟩
    · exact ordering.ordered early reply late asked before member
    · cases new
      exact (absent member).elim

/-- A call returns that has happened. -/
theorem Linearizes.return (ordering : Linearizes answers first history log now)
    (happened : ⟨ticket, call, reply⟩ ∈ log) :
    Linearizes answers first (history ++ [.returned ticket reply]) log now where
  plays := ordering.plays
  once := ordering.once
  invoked := fun entry member => List.mem_append_left _ (ordering.invoked entry member)
  returned := by
    intro other given member
    rcases List.mem_append.mp member with before | new
    · exact ordering.returned other given before
    · cases List.mem_singleton.mp new
      exact ⟨call, happened⟩
  ordered := by
    intro early given late asked pair member
    rcases pair_appended pair with before | ⟨new, _⟩
    · exact ordering.ordered early given late asked before member
    · cases new

/-- A call happens: whatever has returned is in the order before it. -/
theorem Linearizes.happen {next : Abstract} (ordering : Linearizes answers first history log now)
    (absent : ticket ∉ tickets log) (invoked : Event.called ticket call ∈ history)
    (answered : answers now call reply next) :
    Linearizes answers first history (log ++ [⟨ticket, call, reply⟩]) next where
  plays := .next ticket ordering.plays answered
  once := by
    rw [tickets_append]
    exact List.nodup_append.mpr ⟨ordering.once, List.nodup_singleton _, by
      intro left member right single same
      have equal : left = ticket := same.trans (List.mem_singleton.mp single)
      exact absent (equal ▸ member)⟩
  invoked := by
    intro entry member
    rcases List.mem_append.mp member with before | new
    · exact ordering.invoked entry before
    · rw [List.mem_singleton.mp new]
      exact invoked
  returned := by
    intro other given member
    obtain ⟨asked, happened⟩ := ordering.returned other given member
    exact ⟨asked, List.mem_append_left _ happened⟩
  ordered := by
    intro early given late asked pair member
    have isReturned : Event.returned early given ∈ history := pair.subset (by simp)
    obtain ⟨_, happened⟩ := ordering.returned early given isReturned
    rw [tickets_append] at member ⊢
    rcases List.mem_append.mp member with before | new
    · exact (ordering.ordered early given late asked pair before).trans
        (List.sublist_append_left ..)
    · rw [List.mem_singleton.mp new]
      exact (List.singleton_sublist.mpr (mem_tickets happened)).append (List.Sublist.refl _)

theorem Linearizes.entry_unique (ordering : Linearizes answers first history log now)
    {left right : Done Call Reply} (inLeft : left ∈ log) (inRight : right ∈ log)
    (same : left.ticket = right.ticket) : left = right :=
  List.inj_on_of_nodup_map ordering.once inLeft inRight same

/-- The order of the calls themselves, not only of their tickets. -/
theorem Linearizes.entries_ordered (ordering : Linearizes answers first history log now)
    {early late : Done Call Reply} {given : Reply} {asked : Call} (earlyDone : early ∈ log)
    (lateDone : late ∈ log)
    (pair : [Event.returned early.ticket given, Event.called late.ticket asked].Sublist history) :
    [early, late].Sublist log := by
  have ordered := ordering.ordered _ _ _ _ pair (mem_tickets lateDone)
  obtain ⟨entries, inLog, same⟩ := List.sublist_map_iff.mp ordered
  obtain ⟨left, others, rfl, leftSame, rest⟩ := List.map_eq_cons_iff.mp same.symm
  obtain ⟨right, last, rfl, rightSame, nothing⟩ := List.map_eq_cons_iff.mp rest
  rw [List.map_eq_nil_iff.mp nothing] at inLog
  have isLeft := ordering.entry_unique (inLog.subset (by simp)) earlyDone leftSame
  have isRight := ordering.entry_unique (inLog.subset (by simp)) lateDone rightSame
  rw [isLeft, isRight] at inLog
  exact inLog

end Orders

section Soundness

/-- The statements from here on run to the end of the call, if nobody interferes. -/
inductive Ends (program : Program Memory Call Frame Reply) :
    Frame → Memory → Reply → Memory → Prop where
  | here {frame : Frame} {memory : Memory} {reply : Reply}
      (ended : program.finished frame = some reply) : Ends program frame memory reply memory
  | later {frame next : Frame} {memory middle after : Memory} {reply : Reply}
      (advances : program.advance frame memory = some (next, middle))
      (rest : Ends program next middle reply after) : Ends program frame memory reply after

/-- What an object has to show about its calls, one at a time. `decided` tells the statement after
which a call has happened; `seen` is the part of the memory that looks can tell apart. -/
structure Sound (program : Program Memory Call Frame Reply)
    (answers : Abstract → Call → Reply → Abstract → Prop) (admits : Memory → Call → Prop)
    (fits : Abstract → Memory → Prop) (decided : Frame → Bool) (seen : Memory → View) : Prop where
  runs : ∀ {now : Abstract} {memory : Memory} {call : Call} {first : Frame},
    program.entry call = .underLock first → fits now memory → admits memory call →
      ∃ reply after next, Ends program first memory reply after ∧ answers now call reply next ∧
        fits next after
  looks : ∀ {now : Abstract} {memory sight : Memory} {call : Call} {reads : Memory → Reply},
    program.entry call = .look reads → fits now memory → seen sight = seen memory →
      answers now call (reads sight) now
  enters : ∀ {call : Call} {first : Frame},
    program.entry call = .underLock first → decided first = false
  remains : ∀ {frame next : Frame} {memory after : Memory},
    program.advance frame memory = some (next, after) → decided frame = true → decided next = true
  hides : ∀ {frame next : Frame} {memory after : Memory},
    program.advance frame memory = some (next, after) → decided next = decided frame →
      seen after = seen memory
  stops : ∀ {frame : Frame} {reply : Reply}, program.finished frame = some reply →
    decided frame = true ∧ ∀ memory, program.advance frame memory = none

/-- Every call that gets the lock meets what the object asks of its callers. -/
def admitted (admits : Memory → Call → Prop) (world : World Thread Memory Call Frame Reply) :
    Label Thread Call → Prop
  | .acquire thread => ∀ ticket call, world.place thread = .called ticket call →
      admits world.memory call
  | _ => True

instance admittedDecidable [∀ memory call, Decidable (admits memory call)]
    (world : World Thread Memory Call Frame Reply) (label : Label Thread Call) :
    Decidable (admitted admits world label) :=
  match label with
  | .acquire thread =>
      match place : world.place thread with
      | .called ticket call => decidable_of_iff (admits world.memory call) (by
          simp [admitted, place])
      | .outside => .isTrue (by simp [admitted, place])
      | .inside _ _ _ => .isTrue (by simp [admitted, place])
      | .leaving _ _ => .isTrue (by simp [admitted, place])
  | .call _ _ | .advance _ | .release _ | .look _ | .answer _ => .isTrue trivial

/-- The call under the lock, before and after it has happened. -/
inductive Owner (program : Program Memory Call Frame Reply)
    (answers : Abstract → Call → Reply → Abstract → Prop) (fits : Abstract → Memory → Prop)
    (decided : Frame → Bool) (seen : Memory → View) (log : List (Done Call Reply))
    (now : Abstract) (ticket : Nat) (call : Call) (frame : Frame) (memory : Memory) : Prop where
  | before (old after : Memory) (reply : Reply) (next : Abstract) (early : decided frame = false)
      (absent : ticket ∉ tickets log) (fit : fits now old) (same : seen memory = seen old)
      (ends : Ends program frame memory reply after) (answered : answers now call reply next)
      (fitsNext : fits next after)
  | after (last : Memory) (reply : Reply) (late : decided frame = true)
      (happened : ⟨ticket, call, reply⟩ ∈ log) (fit : fits now last)
      (same : seen memory = seen last) (ends : Ends program frame memory reply last)

variable {program : Program Memory Call Frame Reply}
  {answers : Abstract → Call → Reply → Abstract → Prop} {admits : Memory → Call → Prop}
  {fits : Abstract → Memory → Prop} {decided : Frame → Bool} {seen : Memory → View}
  {log : List (Done Call Reply)} {now : Abstract} {ticket : Nat} {call : Call}
  {frame : Frame} {memory : Memory}

/-- Whatever the call under the lock is at, a look sees a memory that fits. -/
theorem Owner.sight (owner : Owner program answers fits decided seen log now ticket call frame
    memory) : ∃ fitting, fits now fitting ∧ seen memory = seen fitting := by
  cases owner with
  | before old after reply next early absent fit same => exact ⟨old, fit, same⟩
  | after last reply late happened fit same => exact ⟨last, fit, same⟩

/-- Another call happens that leaves the object as it is. -/
theorem Owner.other {entry : Done Call Reply}
    (owner : Owner program answers fits decided seen log now ticket call frame memory)
    (different : entry.ticket ≠ ticket) :
    Owner program answers fits decided seen (log ++ [entry]) now ticket call frame memory := by
  cases owner with
  | before old after reply next early absent fit same ends answered fitsNext =>
      exact .before old after reply next early (unused_append absent different.symm) fit same ends
        answered fitsNext
  | after last reply late happened fit same ends =>
      exact .after last reply late (List.mem_append_left _ happened) fit same ends

variable (sound : Sound program answers admits fits decided seen)
include sound

theorem Sound.ends_advanced {next : Frame} {middle after : Memory} {reply : Reply}
    (ends : Ends program frame memory reply after)
    (advances : program.advance frame memory = some (next, middle)) :
    Ends program next middle reply after := by
  cases ends with
  | here ended =>
      rw [(sound.stops ended).2 memory] at advances
      cases advances
  | later goes rest =>
      rw [goes] at advances
      cases advances
      exact rest

theorem Sound.ends_finished {after : Memory} {reply given : Reply}
    (ends : Ends program frame memory reply after) (ended : program.finished frame = some given) :
    given = reply ∧ after = memory := by
  cases ends with
  | here same =>
      rw [same] at ended
      exact ⟨(Option.some.inj ended).symm, rfl⟩
  | later goes =>
      rw [(sound.stops ended).2 memory] at goes
      cases goes

/-- After it has happened a call changes nothing that a look can see. -/
theorem Sound.ends_seen {after : Memory} {reply : Reply}
    (ends : Ends program frame memory reply after) (late : decided frame = true) :
    seen memory = seen after := by
  induction ends with
  | here => rfl
  | later advances rest ih =>
      have stays := sound.remains advances late
      exact (sound.hides advances (stays.trans late.symm)).symm.trans (ih stays)

/-- A statement under the lock: the call happens with it, or nothing a look can see changes. -/
theorem Sound.owner_advanced {next : Frame} {middle : Memory}
    (owner : Owner program answers fits decided seen log now ticket call frame memory)
    (advances : program.advance frame memory = some (next, middle)) :
    Owner program answers fits decided seen log now ticket call next middle ∨
      ∃ reply later, ticket ∉ tickets log ∧ answers now call reply later ∧
        Owner program answers fits decided seen (log ++ [⟨ticket, call, reply⟩]) later ticket call
          next middle := by
  cases owner with
  | before old after reply later early absent fit same ends answered fitsNext =>
      have rest := sound.ends_advanced ends advances
      cases changes : decided next with
      | false =>
          have hidden := sound.hides advances (changes.trans early.symm)
          exact .inl (.before old after reply later changes absent fit (hidden.trans same) rest
            answered fitsNext)
      | true =>
          refine .inr ⟨reply, later, absent, answered, ?_⟩
          exact .after after reply changes (by simp) fitsNext (sound.ends_seen rest changes) rest
  | after last reply late happened fit same ends =>
      have stays := sound.remains advances late
      -- Past its decision a call only tidies up behind what a look can see.
      have hidden := sound.hides advances (stays.trans late.symm)
      exact .inl (.after last reply stays happened fit (hidden.trans same)
        (sound.ends_advanced ends advances))

end Soundness

end Libasock.LockedObjects
