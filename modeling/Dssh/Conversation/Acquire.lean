import Dssh.Conversation.Step
import Dssh.Conversation.Inversion
import Dssh.Lib.Notifier

/-!
# Waiting for a ticket

Tasks that use the two ordered resources of a conversation in any way: they acquire them with
any tickets, drop the future while they wait, drop a guard, and poison the session, with or
without a guard. Each step is one atomic operation. It is not required that tickets are taken in
order or differ, and a task may begin again when it is done, so that the runs of the code are
among those of this machine.

A task that waits has registered, and then loaded the poison flag and the counter. Poisoning and
the drop of a guard change these, and notify afterwards.

## Lost wakeups

A waiter that looks, finds that it is not its turn, and then registers, misses a notification
that comes in between, and sleeps for ever. `acquire` creates the `Notified` future and
*enables* it before it looks, so a notification after that point completes it. The other half of
the protocol is with those who change what is looked at: they store first and notify afterwards.
Both halves are needed, and the code has them in different functions, some of them destructors.

The library's `Notifier` is this argument for any condition. Here it is instantiated twice, for
the two sides, with what the waiter has found as the condition: the flag was not set, the
counter was not its ticket. That each step that changes the flag or the counter is followed by a
notification is read off the lists of drop glue (`announcedOn`), where the operations stand in
their order.

## A machine of its own

The statement could be made about the conversation, and would then be about the tickets that a
conversation really gives out. It is made for tasks that do anything at all with the two
resources, since nothing in the argument depends on who takes which ticket. So it also covers
callers that are not there yet. The functions are the conversation's own: `Acquire.step`,
`DropAct.exec`, `poison`, `dropReaderGuard`.

## Main definitions

* `AccessTask`, `AccessTask.step` — a task, and its atomic operations
* `Accesses`, `Accesses.machine` — any number of them
* `announcedOn` — behind every change comes its notification
* `Accesses.Checked` — what the loads behind a registration have established

## Main results

* `Accesses.checked` — what the loads of a task have established
* `Accesses.rightlyParked` — a task that is parked with no notification pending has to wait
-/

namespace Dssh

namespace Conversation

/-! ## A task and the two resources

The same type of access guards the reader and the writer, and `poison` is of concern to both. A
task of this machine acquires one of them, drops its guard or poisons the session, in any order
and as often as it likes; what it does while it has a guard is left out. -/

/-- The two ordered resources. -/
inductive Side where
  /-- The reading half. -/
  | reader
  /-- The writing half. -/
  | writer
  deriving DecidableEq, Repr

/-- One of them. -/
def Shared.access (sh : Shared) : Side → OrderedAccess
  | .reader => sh.reader
  | .writer => sh.writer

/-- `notify_waiters` -/
def Side.notify : Side → DropAct
  | .reader => .notifyReader
  | .writer => .notifyWriter

/-- `OrderedGuard::drop` -/
def Side.dropGuard (side : Side) (t : ℕ) : List DropAct :=
  match side with
  | .reader => dropReaderGuard t
  | .writer => dropWriterGuard t

/-- Where a task is. -/
inductive AccessTask where
  /-- With neither a ticket nor a guard. -/
  | idle
  /-- In `acquire(t)`. -/
  | acquiring (side : Side) (t : ℕ) (acq : Acquire)
  /-- With the guard of ticket `t`. -/
  | holding (side : Side) (t : ℕ)
  /-- In `drop` or `poison`, with the operations that are left and the guard it will have. -/
  | running (acts : List DropAct) (held : Option (Side × ℕ))

/-- What happens to a task. -/
inductive AccessEvent where
  /-- It calls `acquire`. -/
  | acquire (side : Side) (t : ℕ)
  /-- The next atomic operation. -/
  | run
  /-- The future of `acquire` is dropped. -/
  | cancel
  /-- The guard is dropped. -/
  | drop
  /-- It poisons the session. -/
  | poison
  deriving DecidableEq, Repr

/-- With a guard, or without. -/
def AccessTask.ofHeld : Option (Side × ℕ) → AccessTask
  | none => .idle
  | some (side, t) => .holding side t

/-- Behind an operation of `acquire`; an error leaves the task without a guard. -/
def AccessTask.ofNext (side : Side) (t : ℕ) : Acquire.Next → AccessTask
  | .wait acq => .acquiring side t acq
  | .refused => .idle
  | .granted => .holding side t

/-- One atomic operation of a task, with what it does to the shared state. -/
def AccessTask.step (sh : Shared) : AccessTask → AccessEvent → Option (Shared × AccessTask)
  | .idle, .acquire side t => some (sh, .acquiring side t .register)
  | .idle, .poison => some (sh, .running Conversation.poison none)
  | .acquiring side t acq, .run =>
    (acq.step (sh.access side) sh.poisoned t).map fun next => (sh, ofNext side t next)
  | .acquiring _ _ (.await _), .cancel => some (sh, .idle)
  | .holding side t, .drop => some (sh, .running (side.dropGuard t) none)
  | .holding side t, .poison => some (sh, .running Conversation.poison (some (side, t)))
  | .running (act :: acts) held, .run => some (act.exec sh, .running acts held)
  | .running [] held, .run => some (sh, ofHeld held)
  | _, _ => none

/-! ## What a step can do

The step function once more, as the list of its outcomes. Each of the places of `acquire` has one
outcome or two; the proofs behind this section go by these cases and do not look at the function. -/

/-- What one atomic operation of a task can do, with what is shared before and after it. -/
inductive AccessTask.Steps (sh : Shared) : AccessTask → AccessEvent → Shared → AccessTask → Prop
  | acquire {side : Side} {t : ℕ} :
    Steps sh .idle (.acquire side t) sh (.acquiring side t .register)
  | register {side : Side} {t : ℕ} : Steps sh (.acquiring side t .register) .run sh
      (.acquiring side t (.checkPoison (sh.access side).notifyCalls))
  | refused {side : Side} {t seen : ℕ} (hpoison : sh.poisoned = true) :
      Steps sh (.acquiring side t (.checkPoison seen)) .run sh .idle
  | notRefused {side : Side} {t seen : ℕ} (hpoison : sh.poisoned = false) :
      Steps sh (.acquiring side t (.checkPoison seen)) .run sh
        (.acquiring side t (.checkServing seen))
  | granted {side : Side} {t seen : ℕ} (hserving : (sh.access side).currentServing = t) :
      Steps sh (.acquiring side t (.checkServing seen)) .run sh (.holding side t)
  | park {side : Side} {t seen : ℕ} (hserving : (sh.access side).currentServing ≠ t) :
      Steps sh (.acquiring side t (.checkServing seen)) .run sh (.acquiring side t (.await seen))
  | wake {side : Side} {t seen : ℕ} (hcalls : (sh.access side).notifyCalls ≠ seen) :
      Steps sh (.acquiring side t (.await seen)) .run sh (.acquiring side t .register)
  | cancel {side : Side} {t seen : ℕ} :
      Steps sh (.acquiring side t (.await seen)) .cancel sh .idle
  | drop {side : Side} {t : ℕ} :
      Steps sh (.holding side t) .drop sh (.running (side.dropGuard t) none)
  | poison : Steps sh .idle .poison sh (.running Conversation.poison none)
  | poisonHolding {side : Side} {t : ℕ} :
      Steps sh (.holding side t) .poison sh (.running Conversation.poison (some (side, t)))
  | act {act : DropAct} {acts : List DropAct} {held : Option (Side × ℕ)} :
      Steps sh (.running (act :: acts) held) .run (act.exec sh) (.running acts held)
  | done {held : Option (Side × ℕ)} : Steps sh (.running [] held) .run sh (.ofHeld held)

/-- Whatever `step` computes is one of these. -/
theorem AccessTask.Steps.of_step {sh sh' : Shared} {task task' : AccessTask} {e : AccessEvent}
    (h : task.step sh e = some (sh', task')) : task.Steps sh e sh' task' := by
  unfold AccessTask.step at h
  split at h
  case h_3 side t acq =>
    obtain ⟨next, hnext, heq⟩ := Option.map_eq_some_iff.mp h
    obtain ⟨rfl, rfl⟩ := Prod.mk.inj heq
    cases acq with
    | register =>
      obtain rfl := Option.some.inj hnext
      exact .register
    | checkPoison seen =>
      obtain rfl := Option.some.inj hnext
      split
      case isTrue hpoison => exact .refused hpoison
      case isFalse hpoison => exact .notRefused (Bool.eq_false_of_not_eq_true hpoison)
    | checkServing seen =>
      obtain rfl := Option.some.inj hnext
      split
      case isTrue hserving => exact .granted hserving
      case isFalse hserving => exact .park hserving
    | await seen =>
      rw [Acquire.step] at hnext
      split at hnext
      case isTrue => cases hnext
      case isFalse hcalls =>
        obtain rfl := Option.some.inj hnext
        exact .wake hcalls
  all_goals simp only [Option.some.injEq, Prod.mk.injEq, reduceCtorEq] at h
  all_goals obtain ⟨rfl, rfl⟩ := h
  all_goals constructor

/-! ## What is announced

A task that waits has loaded the flag and the counter, and has to hear of every change of either.
The drop glue and `poison` announce what they change: the notification is an operation of its
own, and it comes behind the change. In between, it is owed. -/

/-- The changes of which those who wait on a side have to be told. -/
def DropAct.concerns (side : Side) : DropAct → Prop
  | storePoison => True
  | advanceReader _ => side = .reader
  | advanceWriter _ => side = .writer
  | _ => False

/-- A notification comes before the next change: what it tells of has been done. -/
def owes (side : Side) : List DropAct → Prop
  | [] => False
  | act :: acts => ¬ act.concerns side ∧ (act = side.notify ∨ owes side acts)

/-- Behind every change comes its notification. -/
def announcedOn (side : Side) : List DropAct → Prop
  | [] => True
  | act :: acts => (act.concerns side → owes side acts) ∧ announcedOn side acts

/-- Poisoning announces what it does, to both sides. -/
theorem announcedOn_poison (side : Side) : announcedOn side poison := by
  cases side <;> simp [poison, announcedOn, owes, DropAct.concerns, Side.notify]

/-- Of a guard of either side. -/
theorem announcedOn_dropGuard (side side' : Side) (t : ℕ) :
    announcedOn side (side'.dropGuard t) := by
  cases side <;> cases side' <;>
    simp [Side.dropGuard, dropReaderGuard, dropWriterGuard, announcedOn, owes, DropAct.concerns,
      Side.notify]

/-- An operation that concerns nobody and is no notification changes nothing that is loaded. -/
theorem DropAct.exec_of_not_concerns {side : Side} {act : DropAct} (h : ¬ act.concerns side)
    (sh : Shared) : (act.exec sh).poisoned = sh.poisoned ∧
      ((act.exec sh).access side).currentServing = (sh.access side).currentServing := by
  cases act with
  | storePoison => exact absurd trivial h
  | advanceReader t => cases side with
    | reader => exact absurd rfl h
    | writer => exact ⟨rfl, rfl⟩
  | advanceWriter t => cases side with
    | reader => exact ⟨rfl, rfl⟩
    | writer => exact absurd rfl h
  | _ => cases side <;> exact ⟨rfl, rfl⟩

/-- A notification is counted. -/
theorem DropAct.notifyCalls_exec (side : Side) (act : DropAct) (sh : Shared) :
    ((act.exec sh).access side).notifyCalls =
      (sh.access side).notifyCalls + if act = side.notify then 1 else 0 := by
  cases act <;> cases side <;> rfl

namespace AccessTask

/-- A task that will notify a side of what it has done. -/
def Owes (side : Side) : AccessTask → Prop
  | running acts _ => owes side acts
  | _ => False

/-- A task that announces what it will do. -/
def Announced (side : Side) : AccessTask → Prop
  | running acts _ => announcedOn side acts
  | _ => True

variable {sh sh' : Shared} {task task' : AccessTask} {e : AccessEvent} {side : Side}

/-- A task goes on to announce what it will do. -/
theorem Steps.announced (ha : task.Announced side) (h : task.Steps sh e sh' task') :
    task'.Announced side := by
  cases h with
  | drop => exact announcedOn_dropGuard side _ _
  | poison | poisonHolding => exact announcedOn_poison side
  | act => exact ha.2
  | @done held => cases held <;> trivial
  | _ => trivial

/-- Notifications are not taken back. -/
theorem Steps.notifyCalls_le (h : task.Steps sh e sh' task') :
    (sh.access side).notifyCalls ≤ (sh'.access side).notifyCalls := by
  cases h with
  | act =>
    rw [DropAct.notifyCalls_exec]
    exact Nat.le_add_right _ _
  | _ => exact Nat.le_refl _

/-- A step that is no notification and owes none changes nothing that is loaded, and none was
owed. -/
theorem Steps.of_quiet (ha : task.Announced side) (h : task.Steps sh e sh' task')
    (hcalls : (sh'.access side).notifyCalls = (sh.access side).notifyCalls)
    (howes : ¬ task'.Owes side) :
    ¬ task.Owes side ∧ sh'.poisoned = sh.poisoned ∧
      (sh'.access side).currentServing = (sh.access side).currentServing := by
  cases h with
  | @act act acts held =>
    have hnotify : act ≠ side.notify := by
      intro hact
      rw [DropAct.notifyCalls_exec, if_pos hact] at hcalls
      omega
    refine ⟨?_, DropAct.exec_of_not_concerns (fun hact => howes (ha.1 hact)) sh⟩
    rintro ⟨-, hact | hacts⟩
    · exact hnotify hact
    · exact howes hacts
  | _ => exact ⟨id, rfl, rfl⟩

end AccessTask

end Conversation

open Conversation

/-- What is shared, and the tasks. -/
structure Accesses where
  shared : Shared
  tasks : ℕ → AccessTask

namespace Accesses

def step (s : Accesses) (a : ℕ × AccessEvent) : Option Accesses :=
  ((s.tasks a.1).step s.shared a.2).map fun r => ⟨r.1, Function.update s.tasks a.1 r.2⟩

/-- Any number of tasks, any schedule. -/
def machine : Machine Accesses (ℕ × AccessEvent) := ⟨⟨{}, fun _ => .idle⟩, step⟩

variable {s s' : Accesses} {i t seen : ℕ} {side : Side}

/-- A step is one of a task. -/
theorem step_task {a : ℕ × AccessEvent} (h : machine.step s a = some s') :
    ∃ task', (s.tasks a.1).Steps s.shared a.2 s'.shared task' ∧
      s'.tasks = Function.update s.tasks a.1 task' := by
  obtain ⟨⟨sh', task'⟩, hstep, rfl⟩ := Option.map_eq_some_iff.mp h
  exact ⟨task', .of_step hstep, rfl⟩

/-- All tasks behind a step: the new one, and the others as they were. -/
theorem forall_tasks {task' : AccessTask} (h : s'.tasks = Function.update s.tasks i task')
    {Q : AccessTask → Prop} : (∀ j, Q (s'.tasks j)) ↔ Q task' ∧ ∀ j ≠ i, Q (s.tasks j) := by
  rw [h]
  exact Function.forall_update_iff _ fun _ task => Q task

/-! ## The notifier of a side

Here the tasks meet the library. A registration is a number of calls; nothing is pending for it
if no call has come since and none is owed. A step that leaves it so has changed neither the flag
nor the counter. -/

/-- Every task announces what it will do. -/
theorem announced (hs : machine.Reachable s) (side : Side) (i : ℕ) :
    (s.tasks i).Announced side := by
  refine hs.invariant (I := fun s => ∀ i, (s.tasks i).Announced side) (fun _ => trivial)
    (fun {s a s'} _ ha _ h => ?_) i
  obtain ⟨task', hst, htasks⟩ := step_task h
  exact (forall_tasks htasks).mpr ⟨hst.announced (ha a.1), fun j _ => ha j⟩

/-- Those who wait on a side. -/
def notifier (side : Side) : Notifier Accesses where
  calls s := (s.shared.access side).notifyCalls
  Owed s := ∃ i, (s.tasks i).Owes side

/-- A step of a run. -/
def Taken (s s' : Accesses) : Prop := machine.Reachable s ∧ ∃ a, machine.step s a = some s'

/-- Notifications are not taken back. -/
theorem Taken.calls_le (h : Taken s s') (side : Side) :
    (notifier side).calls s ≤ (notifier side).calls s' := by
  obtain ⟨-, a, hstep⟩ := h
  obtain ⟨task', hst, -⟩ := step_task hstep
  exact hst.notifyCalls_le

/-- A step that leaves no notification pending changes nothing that is loaded. -/
theorem quiet_of_taken (h : Taken s s')
    (hcalls : (notifier side).calls s' = (notifier side).calls s)
    (howed : ¬ (notifier side).Owed s') :
    ¬ (notifier side).Owed s ∧ s'.shared.poisoned = s.shared.poisoned ∧
      (s'.shared.access side).currentServing = (s.shared.access side).currentServing := by
  obtain ⟨hs, ⟨i, e⟩, hstep⟩ := h
  obtain ⟨task', hst, htasks⟩ := step_task hstep
  obtain ⟨htask', hothers⟩ :=
    (forall_tasks (Q := fun task => ¬ task.Owes side) htasks).mp (not_exists.mp howed)
  obtain ⟨htask, hloads⟩ := hst.of_quiet (announced hs side i) hcalls htask'
  refine ⟨?_, hloads⟩
  rintro ⟨j, hj⟩
  by_cases hji : j = i
  · exact htask (hji ▸ hj)
  · exact hothers j hji hj

/-- Whatever is said of the flag and the counter is announced. -/
theorem announces (side : Side) (p : Bool → ℕ → Prop) :
    (notifier side).Announces Taken
      fun s => p s.shared.poisoned (s.shared.access side).currentServing where
  calls_le h := h.calls_le side
  not_owed h hcalls howed := (quiet_of_taken h hcalls howed).1
  keeps h hcalls howed hp := by
    obtain ⟨-, hpoisoned, hserving⟩ := quiet_of_taken h hcalls howed
    rw [hpoisoned, hserving]
    exact hp

/-! ## What the loads establish

By its place a task says what it has loaded behind its registration: nothing, that the session is
not poisoned, or this and that another ticket is served. With nothing pending, it is still true,
by the step that the task takes itself and by those that the others take. -/

/-- What the loads behind a registration have established, for as long as no notification is
pending. -/
def Checked (s : Accesses) : AccessTask → Prop
  | .acquiring side _ (.checkPoison seen) => seen ≤ (notifier side).calls s
  | .acquiring side _ (.checkServing seen) =>
    (notifier side).Established (fun s => s.shared.poisoned = false) s seen
  | .acquiring side t (.await seen) =>
    (notifier side).Established
      (fun s => s.shared.poisoned = false ∧ (s.shared.access side).currentServing ≠ t) s seen
  | _ => True

/-- What is established lasts. -/
theorem Checked.of_taken (h : Taken s s') {task : AccessTask} (hc : s.Checked task) :
    s'.Checked task := by
  cases task with
  | acquiring side t acq => cases acq with
    | register => trivial
    | checkPoison seen => exact Nat.le_trans hc (h.calls_le side)
    | checkServing seen =>
      exact (announces side fun poisoned _ => poisoned = false).established h hc
    | await seen =>
      exact (announces side fun poisoned serving => poisoned = false ∧ serving ≠ t).established h hc
  | _ => trivial

/-- The task that takes the step establishes what its new place says. -/
theorem Checked.of_own_step {e : AccessEvent} {task' : AccessTask} (h : Taken s s')
    (hc : s.Checked (s.tasks i)) (hst : (s.tasks i).Steps s.shared e s'.shared task') :
    s'.Checked task' := by
  generalize s.tasks i = task at hc hst
  generalize hsh : s'.shared = sh' at hst
  cases hst with
  | @register side =>
    show (s.shared.access side).notifyCalls ≤ (s'.shared.access side).notifyCalls
    rw [hsh]
  | notRefused hpoison =>
    have hseen := hc.of_taken h
    exact ⟨hseen, fun _ => hsh ▸ hpoison⟩
  | park hserving =>
    -- the flag was loaded earlier, and has been announced if it has changed
    have hpoisoned := hc.of_taken h
    exact ⟨hpoisoned.seen_le, fun hquiet => ⟨hpoisoned.of_quiet hquiet, hsh ▸ hserving⟩⟩
  | @done held => cases held <;> trivial
  | _ => trivial

/-- What the loads of every task have established, in every reachable state. -/
theorem checked (hs : machine.Reachable s) (i : ℕ) : s.Checked (s.tasks i) := by
  refine hs.invariant (I := fun s => ∀ i, s.Checked (s.tasks i)) (fun _ => trivial)
    (fun {s a s'} hs hc _ h => ?_) i
  have htaken : Taken s s' := ⟨hs, a, h⟩
  obtain ⟨task', hst, htasks⟩ := step_task h
  exact (forall_tasks htasks).mpr
    ⟨.of_own_step htaken (hc a.1) hst, fun j _ => (hc j).of_taken htaken⟩

/-- **No lost wakeup.** A task that is parked with no notification pending for it has to wait: the
session is not poisoned, and another ticket is served. -/
theorem rightlyParked (hs : machine.Reachable s)
    (hparked : s.tasks i = .acquiring side t (.await seen))
    (hquiet : (notifier side).Quiet s seen) :
    s.shared.poisoned = false ∧ (s.shared.access side).currentServing ≠ t := by
  have hc := checked hs i
  rw [hparked] at hc
  exact hc.of_quiet hquiet

/-- Task `0` gets the guard of ticket `0`, task `1` parks with ticket `1`, and task `2` is about to
poison the session. -/
def nextInLine : List (ℕ × AccessEvent) :=
  (0, .acquire .writer 0) :: List.replicate 3 (0, .run) ++
    (1, .acquire .writer 1) :: List.replicate 3 (1, .run) ++ [(2, .poison)]

/-- Where `nextInLine` ends. -/
def behindGuard : Accesses where
  shared := {}
  tasks
    | 0 => .holding .writer 0
    | 1 => .acquiring .writer 1 (.await 0)
    | 2 => .running Conversation.poison none
    | _ => .idle

/-- The first task holds the guard, and the second is parked. -/
theorem exec_nextInLine : machine.exec machine.init nextInLine = some behindGuard := by
  refine congrArg (fun tasks => some (Accesses.mk {} tasks)) ?_
  funext i
  match i with
  | 0 | 1 | 2 => rfl
  | i + 3 => rfl

/-- It is parked rightly. -/
theorem behindGuard_rightlyParked :
    behindGuard.shared.poisoned = false ∧
      (behindGuard.shared.access .writer).currentServing ≠ 1 := by
  refine rightlyParked (i := 1) (Machine.reach_of_exec .init exec_nextInLine) rfl ⟨rfl, ?_⟩
  rintro ⟨i, hi⟩
  match i with
  | 0 | 1 => exact hi
  -- nothing is stored yet, so nothing is owed
  | 2 => exact hi.1 trivial
  | i + 3 => exact hi

end Accesses

end Dssh
