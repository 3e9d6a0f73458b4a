import Dssh.Lib.Machine

/-!
# Relaying a reverse-forwarded connection

Once its channel is open, `open_channel_and_relay` runs one task for each direction and waits
until both have ended. It waits in a `select!`, against `relay_cancel`, for a future that awaits
the two handles one after the other. When the cancellation wins, this future is dropped with all
it holds, both tasks are aborted, and the handles are awaited again from the first one on.

A handle returns its result once. Polling it after that panics, and the future that was dropped
may already have been given the result of the first handle: one direction has ended, the other
is open.

## What the `select!` drops

The future borrows both handles and owns the local variable `r1`. Dropping it gives the borrows
back and throws the variable away. If the first `await` has not returned, nothing is lost, and
the handles can be awaited again. If it has, the result is gone, while the handle is spent. The
second `await` on it panics with a message about polling after completion.

A half-closed connection is the ordinary way there: the peer has sent its last byte and shut
down its side, the relay in this direction returns, and the other one is in use for as long as
the program likes. A cancellation during this time is a shutdown with an open connection.

## The model

A task is what its handle knows of it: whether it has ended, whether it has been aborted,
whether its result has been taken. What the tasks do is arbitrary. They may end at any time with
a count, an error or a panic, and as cancelled only after an `abort`. Of the function there are
six places, and the token can be cancelled at any time. `select!` may take either branch when
both are ready, as tokio's does without `biased`.

Polling a spent handle is a step to the place `panicked`, which is never left. The alternative,
to have no such step, would make the property true for the wrong reason.

## The condition

`KeepsResult` says of a step that it does not take the cancelled branch while the other future
has `r1`. It is about the state before the step. Along a run, all handles are joined once
exactly as long as every step has it (`joinsRightly_iff`), so the defect has this one cause.

## Main definitions

* `RelayTask`, `ChannelRelay`, `ChannelRelay.step` — the tasks and the function that waits
* `ChannelRelay.JoinsRightly` — what is asked of every state
* `ChannelRelay.Joined` — the invariant, one case for each place

## Main results

* `ChannelRelay.joinsRightly_iff` — a run awaits no handle that has returned, returns with both
  results and leaves no task running after a cancellation exactly when the cancellation never
  wins against a future that has the first result
* `ChannelRelay.halfClosed_cancelled` — a run where it does, and panics
-/

namespace Dssh

/-! ## Tasks and handles

A relay task ends by itself, with an error or not, or as cancelled when it has been aborted. Its
handle gives the result once. Polling the handle a second time is a panic, which the model has as
a place of its own. -/

/-- What awaiting the handle of a relay task returns. -/
inductive JoinResult where
  /-- What `relay` has returned: how many bytes it copied, or an error. -/
  | joined (copied : Option ℕ)
  /-- The task has panicked, and its handle says so. -/
  | panicked
  /-- The task has been aborted. -/
  | cancelled
  deriving DecidableEq

/-- A relay task, as its handle and its abort handle know it. -/
structure RelayTask where
  /-- What it has ended with. -/
  result : Option JoinResult := none
  /-- `abort` has been called. -/
  aborted : Bool := false
  /-- The handle has returned the result. -/
  returned : Bool := false
  deriving DecidableEq

/-- Channel to stream, and stream to channel. -/
inductive RelayDirection where
  /-- `relay(reader, local_writer)` -/
  | ch2s
  /-- `relay(local_reader, writer)` -/
  | s2ch
  deriving DecidableEq

namespace ChannelRelay

/-! ## The function

The two branches of `select!`, and what each does when the other one has been dropped. A future
that is dropped loses what it has been given, and for a handle this may be the result. -/

/-- Where `open_channel_and_relay` is, once the tasks are spawned. -/
inductive Place where
  /-- In `select!`, its future awaiting `ch2s`. -/
  | selecting
  /-- In `select!`, its future awaiting `s2ch`, with the result of `ch2s`. -/
  | selectingSecond (r1 : JoinResult)
  /-- Cancelled, awaiting `ch2s`. -/
  | cancelledFirst
  /-- Cancelled, awaiting `s2ch`. -/
  | cancelledSecond (r1 : JoinResult)
  | returned (r1 r2 : JoinResult)
  | panicked
  deriving DecidableEq

end ChannelRelay

/-- `open_channel_and_relay` in progress, with its two tasks. -/
structure ChannelRelay where
  /-- Where the function that joins them is. -/
  place : ChannelRelay.Place := .selecting
  /-- From the channel to the socket. -/
  ch2s : RelayTask := {}
  /-- From the socket to the channel. -/
  s2ch : RelayTask := {}
  /-- `relay_cancel` is cancelled. -/
  relayCancel : Bool := false
  deriving DecidableEq

namespace RelayTask

/-- The task ends. It ends as cancelled only after an `abort`, and may end otherwise after one. -/
def ends (t : RelayTask) (r : JoinResult) : Option RelayTask :=
  if t.result = none ∧ (r = .cancelled → t.aborted = true) then some { t with result := some r }
  else none

/-- `AbortHandle::abort`; the task may still end on its own. -/
def abort (t : RelayTask) : RelayTask := { t with aborted := true }

/-- The handle has returned its result. -/
def joined (t : RelayTask) : RelayTask := { t with returned := true }

/-- Aborted, or ended before. -/
def Stopped (t : RelayTask) : Prop := t.aborted = true ∨ t.result.isSome = true

/-- The handle has returned `r`. -/
def Returned (t : RelayTask) (r : JoinResult) : Prop := t.returned = true ∧ t.result = some r

variable {t t' : RelayTask} {r r' : JoinResult}

/-- A task whose result has been taken has ended. -/
theorem Returned.stopped (h : t.Returned r) : t.Stopped := by
  right
  rw [h.2]
  rfl

/-- A task ends once. -/
theorem ends_eq_some (h : t.ends r = some t') :
    t.result = none ∧ t' = { t with result := some r } := by
  unfold ends at h
  split at h
  · rename_i hends
    exact ⟨hends.1, (Option.some.inj h).symm⟩
  · cases h

/-- The end of a task says nothing to those who await its handle. -/
theorem returned_of_ends (h : t.ends r = some t') : t'.returned = t.returned := by
  rw [(ends_eq_some h).2]

/-- A task whose handle has returned has ended already. -/
theorem not_returned_of_ends (h : t.ends r = some t') : ¬ t.Returned r' := by
  rintro ⟨-, hr'⟩
  rw [(ends_eq_some h).1] at hr'
  cases hr'

/-- A task that ends has stopped. -/
theorem Stopped.of_ends (h : t.ends r = some t') : t'.Stopped := by
  right
  rw [(ends_eq_some h).2]
  rfl

/-- A task that is aborted has stopped, or will at its next `await`. -/
theorem stopped_abort : t.abort.Stopped := Or.inl rfl

end RelayTask

namespace ChannelRelay

/-- What the scheduler chooses. -/
inductive Action where
  | ends (direction : RelayDirection) (r : JoinResult)
  /-- Somebody cancels `relay_cancel`. -/
  | cancels
  /-- The handle that is awaited is polled, and its task has ended. -/
  | joins
  /-- The branch `relay_cancel.cancelled()` of `select!` is taken. -/
  | takesCancelled
  deriving DecidableEq

/-- Poll the handle of `ch2s`; polling a handle that has returned panics. -/
def joinCh2s (s : ChannelRelay) (next : JoinResult → Place) : Option ChannelRelay :=
  if s.ch2s.returned then some { s with place := .panicked }
  else s.ch2s.result.map fun r1 => { s with ch2s := s.ch2s.joined, place := next r1 }

/-- Poll the handle of `s2ch`. -/
def joinS2ch (s : ChannelRelay) (r1 : JoinResult) : Option ChannelRelay :=
  if s.s2ch.returned then some { s with place := .panicked }
  else s.s2ch.result.map fun r2 => { s with s2ch := s.s2ch.joined, place := .returned r1 r2 }

/-- What the branch does; the future of the other branch is dropped. -/
def abortBoth (s : ChannelRelay) : ChannelRelay :=
  { s with ch2s := s.ch2s.abort, s2ch := s.s2ch.abort, place := .cancelledFirst }

/-- One step of the function or of a task; `none` where the action is not possible. -/
def step (s : ChannelRelay) : Action → Option ChannelRelay
  | .ends .ch2s r => (s.ch2s.ends r).map fun t => { s with ch2s := t }
  | .ends .s2ch r => (s.s2ch.ends r).map fun t => { s with s2ch := t }
  | .cancels => some { s with relayCancel := true }
  | .joins =>
    match s.place with
    | .selecting => s.joinCh2s .selectingSecond
    | .selectingSecond r1 => s.joinS2ch r1
    | .cancelledFirst => s.joinCh2s .cancelledSecond
    | .cancelledSecond r1 => s.joinS2ch r1
    | .returned .. | .panicked => none
  | .takesCancelled =>
    match s.place with
    | .selecting | .selectingSecond _ => if s.relayCancel then some s.abortBoth else none
    | _ => none

/-- The wait for two relay tasks that behave in any way, cancelled at any time. -/
def machine : Machine ChannelRelay Action := ⟨{}, step⟩

/-- The task whose handle is awaited. -/
def awaited (s : ChannelRelay) : Option RelayTask :=
  match s.place with
  | .selecting | .cancelledFirst => some s.ch2s
  | .selectingSecond _ | .cancelledSecond _ => some s.s2ch
  | .returned .. | .panicked => none

/-- No longer in `select!`. -/
def Place.selected : Place → Bool
  | .selecting | .selectingSecond _ => false
  | .cancelledFirst | .cancelledSecond _ | .returned .. | .panicked => true

/-- What is asked of every state. -/
structure JoinsRightly (s : ChannelRelay) : Prop where
  /-- No handle is awaited that has returned its result. -/
  awaits : ∀ t ∈ s.awaited, t.returned = false
  /-- The function goes on to its end. -/
  not_panicked : s.place ≠ .panicked
  /-- Returned with the results of both tasks. -/
  returned : ∀ r1 r2, s.place = .returned r1 r2 → s.ch2s.Returned r1 ∧ s.s2ch.Returned r2
  /-- No task goes on after a cancellation. -/
  stopped : s.relayCancel = true → s.place.selected = true → s.ch2s.Stopped ∧ s.s2ch.Stopped

/-- The step does not drop a future that has been given the result of `ch2s`. -/
def KeepsResult (s : ChannelRelay) (a : Action) : Prop :=
  a = .takesCancelled → ∀ r1, s.place ≠ .selectingSecond r1

/-! ## The invariant

What has been taken of each handle, place by place. Only one step breaks it: the branch of the
cancellation is chosen when the other branch has taken the first result and waits for the second. -/

/-- What the place says about the tasks. -/
def Joined (s : ChannelRelay) : Prop :=
  match s.place with
  | .selecting => s.ch2s.returned = false ∧ s.s2ch.returned = false
  | .selectingSecond r1 => s.ch2s.Returned r1 ∧ s.s2ch.returned = false
  | .cancelledFirst =>
    (s.ch2s.returned = false ∧ s.s2ch.returned = false) ∧ s.ch2s.Stopped ∧ s.s2ch.Stopped
  | .cancelledSecond r1 => s.ch2s.Returned r1 ∧ s.s2ch.returned = false ∧ s.s2ch.Stopped
  | .returned r1 r2 => s.ch2s.Returned r1 ∧ s.s2ch.Returned r2
  | .panicked => False

/-- The invariant has what is asked of a state. -/
theorem Joined.joinsRightly {s : ChannelRelay} (h : s.Joined) : s.JoinsRightly := by
  rcases s with ⟨place, ch2s, s2ch, relayCancel⟩
  cases place with
  | selecting =>
    exact ⟨fun t ht => Option.some.inj ht ▸ h.1, by simp, by simp, by simp [Place.selected]⟩
  | selectingSecond r1 =>
    exact ⟨fun t ht => Option.some.inj ht ▸ h.2, by simp, by simp, by simp [Place.selected]⟩
  | cancelledFirst =>
    exact ⟨fun t ht => Option.some.inj ht ▸ h.1.1, by simp, by simp, fun _ _ => h.2⟩
  | cancelledSecond r1 =>
    exact ⟨fun t ht => Option.some.inj ht ▸ h.2.1, by simp, by simp,
      fun _ _ => ⟨h.1.stopped, h.2.2⟩⟩
  | returned r1 r2 =>
    refine ⟨by simp [awaited], by simp, fun r1' r2' hplace => ?_,
      fun _ _ => ⟨h.1.stopped, h.2.stopped⟩⟩
    obtain ⟨rfl, rfl⟩ := Place.returned.inj hplace
    exact h
  | panicked => exact False.elim h

/-- The end of `ch2s` is no concern of the places. -/
theorem Joined.ends_ch2s {s : ChannelRelay} {r : JoinResult} {t : RelayTask} (h : s.Joined)
    (ht : s.ch2s.ends r = some t) : Joined { s with ch2s := t } := by
  rcases s with ⟨place, ch2s, s2ch, relayCancel⟩
  have hreturned := RelayTask.returned_of_ends ht
  cases place with
  | selecting => exact ⟨hreturned.trans h.1, h.2⟩
  | selectingSecond r1 => exact absurd h.1 (RelayTask.not_returned_of_ends ht)
  | cancelledFirst => exact ⟨⟨hreturned.trans h.1.1, h.1.2⟩, .of_ends ht, h.2.2⟩
  | cancelledSecond r1 => exact absurd h.1 (RelayTask.not_returned_of_ends ht)
  | returned r1 r2 => exact absurd h.1 (RelayTask.not_returned_of_ends ht)
  | panicked => exact False.elim h

/-- Nor is the end of `s2ch`. -/
theorem Joined.ends_s2ch {s : ChannelRelay} {r : JoinResult} {t : RelayTask} (h : s.Joined)
    (ht : s.s2ch.ends r = some t) : Joined { s with s2ch := t } := by
  rcases s with ⟨place, ch2s, s2ch, relayCancel⟩
  have hreturned := RelayTask.returned_of_ends ht
  cases place with
  | selecting => exact ⟨h.1, hreturned.trans h.2⟩
  | selectingSecond r1 => exact ⟨h.1, hreturned.trans h.2⟩
  | cancelledFirst => exact ⟨⟨h.1.1, hreturned.trans h.1.2⟩, h.2.1, .of_ends ht⟩
  | cancelledSecond r1 => exact ⟨h.1, hreturned.trans h.2.1, .of_ends ht⟩
  | returned r1 r2 => exact absurd h.2 (RelayTask.not_returned_of_ends ht)
  | panicked => exact False.elim h

/-- A poll of a handle that has not returned does not panic. -/
theorem joinCh2s_eq_some {s s' : ChannelRelay} {next : JoinResult → Place}
    (hreturned : s.ch2s.returned = false) (h : s.joinCh2s next = some s') :
    ∃ r1, s.ch2s.joined.Returned r1 ∧ s' = { s with ch2s := s.ch2s.joined, place := next r1 } := by
  rw [joinCh2s, if_neg (by simp [hreturned])] at h
  obtain ⟨r1, hr1, rfl⟩ := Option.map_eq_some_iff.mp h
  exact ⟨r1, ⟨rfl, hr1⟩, rfl⟩

/-- The same for the second handle. -/
theorem joinS2ch_eq_some {s s' : ChannelRelay} {r1 : JoinResult}
    (hreturned : s.s2ch.returned = false) (h : s.joinS2ch r1 = some s') :
    ∃ r2, s.s2ch.joined.Returned r2 ∧
      s' = { s with s2ch := s.s2ch.joined, place := .returned r1 r2 } := by
  rw [joinS2ch, if_neg (by simp [hreturned])] at h
  obtain ⟨r2, hr2, rfl⟩ := Option.map_eq_some_iff.mp h
  exact ⟨r2, ⟨rfl, hr2⟩, rfl⟩

/-- Awaiting the handles, in `select!` or behind it. -/
theorem Joined.joins {s s' : ChannelRelay} (h : s.Joined) (hstep : s.step .joins = some s') :
    s'.Joined := by
  rcases s with ⟨place, ch2s, s2ch, relayCancel⟩
  cases place with
  | selecting =>
    obtain ⟨r1, hr1, rfl⟩ := joinCh2s_eq_some h.1 hstep
    exact ⟨hr1, h.2⟩
  | selectingSecond r1 =>
    obtain ⟨r2, hr2, rfl⟩ := joinS2ch_eq_some h.2 hstep
    exact ⟨h.1, hr2⟩
  | cancelledFirst =>
    obtain ⟨r1, hr1, rfl⟩ := joinCh2s_eq_some h.1.1 hstep
    exact ⟨hr1, h.1.2, h.2.2⟩
  | cancelledSecond r1 =>
    obtain ⟨r2, hr2, rfl⟩ := joinS2ch_eq_some h.2.1 hstep
    exact ⟨h.1, hr2⟩
  | returned r1 r2 => cases hstep
  | panicked => cases hstep

/-- The branch is taken inside of `select!` only. -/
theorem takesCancelled_eq_some {s s' : ChannelRelay} (h : s.step .takesCancelled = some s') :
    (s.place = .selecting ∨ ∃ r1, s.place = .selectingSecond r1) ∧ s' = s.abortBoth := by
  rcases s with ⟨place, ch2s, s2ch, relayCancel⟩
  cases place <;> simp only [step, reduceCtorEq] at h
  all_goals
    split at h
    · exact ⟨by simp, (Option.some.inj h).symm⟩
    · cases h

/-- **The step.** A step that keeps the result keeps the invariant. -/
theorem Joined.step {s s' : ChannelRelay} {a : Action} (h : s.Joined) (hkeeps : KeepsResult s a)
    (hstep : s.step a = some s') : s'.Joined := by
  cases a with
  | ends direction r =>
    cases direction with
    | ch2s =>
      obtain ⟨t, ht, rfl⟩ := Option.map_eq_some_iff.mp hstep
      exact h.ends_ch2s ht
    | s2ch =>
      obtain ⟨t, ht, rfl⟩ := Option.map_eq_some_iff.mp hstep
      exact h.ends_s2ch ht
  | cancels =>
    obtain rfl := Option.some.inj hstep
    exact h
  | joins => exact h.joins hstep
  | takesCancelled =>
    obtain ⟨hplace | ⟨r1, hplace⟩, rfl⟩ := takesCancelled_eq_some hstep
    · rw [Joined, hplace] at h
      exact ⟨h, RelayTask.stopped_abort, RelayTask.stopped_abort⟩
    · exact absurd hplace (hkeeps rfl r1)

/-- At the start nothing has been joined. -/
theorem joined_init : machine.init.Joined := ⟨rfl, rfl⟩

/-- Along runs that keep the result, in every state. -/
theorem joined_of_reach {s : ChannelRelay} (h : machine.Reach KeepsResult s) : s.Joined := by
  refine h.invariant (I := Joined) joined_init ?_
  intro s a s' _ hs hok hstep
  exact hs.step hok hstep

/-- Dropping the future that has the first result, one awaits a handle that has returned. -/
theorem Joined.keepsResult {s s' : ChannelRelay} {a : Action} (h : s.Joined)
    (hstep : s.step a = some s') (h' : s'.JoinsRightly) : KeepsResult s a := by
  rintro rfl r1 hplace
  obtain ⟨-, rfl⟩ := takesCancelled_eq_some hstep
  rw [Joined, hplace] at h
  have hreturned : s.ch2s.abort.returned = false := h'.awaits _ rfl
  exact Bool.false_ne_true (hreturned.symm.trans h.1.1)

/-- **Both handles are joined once.** Along a run, no handle is awaited again that has returned its
result, the function returns with both results, and after a cancellation both tasks are aborted or
have ended, exactly when `relay_cancel` never wins while its rival has the first result. -/
theorem joinsRightly_iff {l : List (ChannelRelay × Action)} {s : ChannelRelay}
    (h : machine.Path l s) :
    ((∀ x ∈ l, x.1.JoinsRightly) ∧ s.JoinsRightly) ↔ ∀ x ∈ l, KeepsResult x.1 x.2 := by
  have hstep : ∀ {s a s'}, machine.Reach KeepsResult s → s.JoinsRightly →
      machine.step s a = some s' → (s'.JoinsRightly ↔ KeepsResult s a) := by
    intro s a s' hs _ hstep
    have hjoined := joined_of_reach hs
    exact ⟨fun h' => hjoined.keepsResult hstep h', fun hok => (hjoined.step hok hstep).joinsRightly⟩
  exact h.forall_iff (P := JoinsRightly) joined_init.joinsRightly hstep

/-- One direction has ended, the other is still open. -/
def halfClosedRun : List Action := [.ends .ch2s (.joined (some 5)), .joins]

/-- The other ends too. A cancellation comes, and `select!` takes the second result. -/
theorem halfClosed_joinsRightly_iff :
    ∃ s, machine.exec machine.init
    (halfClosedRun ++ [.ends .s2ch (.joined (some 3)), .cancels, .joins]) =
        some s ∧ s.place = .returned (.joined (some 5)) (.joined (some 3)) ∧
      (∀ x ∈ machine.trace machine.init
          (halfClosedRun ++ [.ends .s2ch (.joined (some 3)), .cancels, .joins]), x.1.JoinsRightly) ∧
      s.JoinsRightly := by
  have hruns : (machine.exec machine.init
      (halfClosedRun ++ [.ends .s2ch (.joined (some 3)), .cancels, .joins])).any (fun s =>
        decide (s.place = .returned (.joined (some 5)) (.joined (some 3)))) = true := by decide
  have hactions : ∀ x ∈ machine.trace machine.init
      (halfClosedRun ++ [.ends .s2ch (.joined (some 3)), .cancels, .joins]),
        x.2 ≠ .takesCancelled := by
    decide
  obtain ⟨s, hs, hplace⟩ := (Option.any_eq_true _ _).mp hruns
  exact ⟨s, hs, of_decide_eq_true hplace,
    (joinsRightly_iff (.of_exec hs)).mpr fun x hx htakes => absurd htakes (hactions x hx)⟩

/-- Cancelled now, it awaits the handle that has returned, and panics. -/
theorem halfClosed_cancelled :
    ∃ s s', machine.exec machine.init (halfClosedRun ++ [.cancels, .takesCancelled]) = some s ∧
      ¬ s.JoinsRightly ∧ machine.step s .joins = some s' ∧ s'.place = .panicked := by
  obtain ⟨s, s', hs, hreturned, hstep, hs'⟩ := Machine.exists_exec_snoc (M := machine)
    (halfClosedRun ++ [.cancels, .takesCancelled]) .joins
    (p := fun s => decide (s.awaited = some s.ch2s ∧ s.ch2s.returned = true)) (by decide)
  obtain ⟨hawaited, hreturned⟩ := of_decide_eq_true hreturned
  refine ⟨s, s', hs, fun h => ?_, hstep, ?_⟩
  · exact Bool.false_ne_true ((h.awaits _ hawaited).symm.trans hreturned)
  · rw [show s' = _ from (Option.some.inj (hs'.symm.trans rfl))]

end ChannelRelay

end Dssh
