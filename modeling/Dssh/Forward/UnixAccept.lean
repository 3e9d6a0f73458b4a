import Dssh.Conversation.Inversion
import Dssh.Forward.Bind

/-!
# Accepting a Unix socket forward

`accept_unix_forward` binds the socket, which creates its file, answers the request, and only
then builds the `UnixSocketGuard` that removes the file. Answering takes as long as other
writers do, can fail, and can be cancelled. `UnixForwardListener::bind` builds the guard at
once.

The call belongs to one task of a conversation. All other tasks, and the peer, do what they
want; the files elsewhere may change too.

## Who owns the file

The doc comment of the listener says that the socket file is removed when the value is dropped.
In between the bind and the value there is an `await`. A socket that is dropped there is closed,
but its file stays where it is, and the next bind to this path fails because it exists. The
sibling `bind` shows the order that was meant: listener first, guard in the same expression.

The other order matters for the path on which nothing is created, too. If the bind fails, the
call answers with a failure and must not touch the files: the path may be that of another
listener. `kept_iff` says this as well.

## Where the wait comes from

Answering goes through `acquire_writer`. The task may have to wait until other tasks have
written, may find the session poisoned, may fail to write, and may be aborted at each of these
points. All of that is in the model of the conversation, so the call is put on top of it: task
`i` has decoded a request and holds the reply ticket. `UnixAccept.step` lets the conversation
take any of its steps, and looks at what the task has come to.

`Pc.Answering` and `Pc.Failing` divide the places of a task that answers into those from which
it may still succeed and those from which it cannot. `Disturbs` is the set of steps that lead
from the first to the second: the future is dropped, I/O fails, or a check of the poison flag
finds it set. One lemma per operation (`Pc.Steps.answering`) says that there are no other ways.

## The condition

An undisturbed run keeps the file in good hands and a disturbed one does not, whatever happens
later, as long as the disturbance comes while the file is there. That the conclusion is about
the end of the call is necessary: in the middle of the answer, the file always exists without a
guard.

## Main definitions

* `Conversation.Pc.Answering`, `Conversation.Pc.Failing`, `Conversation.Disturbs`
* `UnixAccept`, `UnixAccept.step` — the call in progress
* `UnixAccept.Kept` — what is asked when it is over
* `UnixAccept.Undisturbed` — the condition

## Main results

* `Conversation.Pc.Steps.answering` — what can go wrong while a task answers
* `UnixAccept.kept_iff` — when the call ends, the file is kept by the listener that it returns
  or there is no file, exactly when nothing has gone wrong while it answered with the file
  created
* `UnixAccept.waiting_dropped` — it waits for its turn to write, is dropped, and the file stays
-/

namespace Dssh

namespace Conversation

variable {V : Type}

/-! ## A task that answers

Once the call has begun to answer, the task of the conversation is somewhere in the code that
writes a reply. It goes on to have answered, unless one of three things happens to it; then it
ends without. -/

/-- A response that has been written. -/
def Outcome.answered : Outcome V → Bool
  | .respond (.ok ()) => true
  | _ => false

/-- Behind its drop glue, the task answers or has answered. -/
def After.Answering : After V → Prop
  | .drain (.respond _) _ => True
  | .finish o => o.answered = true
  | _ => False

/-- The task answers, and nothing has gone wrong. -/
def Pc.Answering : Pc V → Prop
  | .acquireWriter (.respond _) _ _ => True
  | .writing (.respond _) _ _ => True
  | .unwinding _ next => next.Answering
  | .finished o => o.answered = true
  | _ => False

/-- The task will not have answered. -/
def Pc.Failing : Pc V → Prop
  | .unwinding _ (.finish o) => o.answered = false
  | .finished o => o.answered = false
  | _ => False

/-- About to look at the poison flag, on the way to the writer. -/
def Pc.checksPoison : Pc V → Bool
  | .acquireWriter _ _ (.drainAcquire _ (.checkPoison _)) => true
  | .acquireWriter _ _ (.checkPoison _) => true
  | .acquireWriter _ _ (.acquire (.checkPoison _)) => true
  | _ => false

/-- The future is dropped, a write fails, or the session is found poisoned. -/
def Disturbs (sh : Shared) (pc : Pc V) (e : Event) : Prop :=
  e = .cancel ∨ e = .ioError ∨ e = .run ∧ pc.checksPoison = true ∧ sh.poisoned = true

/-- A step is no disturbance if it is none of the three. -/
theorem not_disturbs {sh : Shared} {pc : Pc V} {e : Event} (hcancel : e ≠ .cancel)
    (hio : e ≠ .ioError) (hpoison : pc.checksPoison = true → sh.poisoned = false) :
    ¬ Disturbs sh pc e := by
  rintro (h | h | ⟨-, hchecks, hpoisoned⟩)
  · exact hcancel h
  · exact hio h
  · rw [hpoison hchecks] at hpoisoned
    cases hpoisoned

/-- How the cases in which a task goes on are put. -/
theorem answering_of_not_disturbs {sh : Shared} {pc pc' : Pc V} {e : Event} (h : ¬ Disturbs sh pc e)
    (ha : pc'.Answering) :
    (¬ Disturbs sh pc e → pc'.Answering) ∧ (Disturbs sh pc e → pc'.Failing) :=
  ⟨fun _ => ha, fun hdisturbs => absurd hdisturbs h⟩

/-- How the cases in which it fails are put. -/
theorem failing_of_disturbs {sh : Shared} {pc pc' : Pc V} {e : Event} (h : Disturbs sh pc e)
    (hf : pc'.Failing) :
    (¬ Disturbs sh pc e → pc'.Answering) ∧ (Disturbs sh pc e → pc'.Failing) :=
  ⟨fun hnot => absurd h hnot, fun _ => hf⟩

/-- An `acquire` that goes on has not been at its check, or not on a poisoned session. -/
theorem Acquire.not_poisoned {oa : OrderedAccess} {poisoned : Bool} {t : ℕ} {acq acq' : Acquire}
    (h : acq.step oa poisoned t = some (.wait acq')) (hcheck : ∃ seen, acq = .checkPoison seen) :
    poisoned = false := by
  obtain ⟨seen, rfl⟩ := hcheck
  cases poisoned with
  | false => rfl
  | true => simp [Acquire.step] at h

/-- **Inside `acquire_writer`.** -/
theorem WriterWait.Steps.answering {sh sh' : Shared} {answer : Answer} {t : ℕ} {wait : WriterWait}
    {pc' : Pc V} {e : Event} (h : WriterWait.Steps sh (.respond answer) t wait e sh' pc') :
    (¬ Disturbs sh (.acquireWriter (V := V) (.respond answer) t wait) e → pc'.Answering) ∧
      (Disturbs sh (.acquireWriter (V := V) (.respond answer) t wait) e → pc'.Failing) := by
  cases h with
  | drainRefused hpoison | refused hpoison | acquireRefused hpoison =>
    exact failing_of_disturbs (.inr (.inr ⟨rfl, rfl, hpoison⟩)) rfl
  | drainCancel | drainWriteCancel | cancel | acquireCancel =>
    exact failing_of_disturbs (.inl rfl) rfl
  | drainIoError => exact failing_of_disturbs (.inr (.inl rfl)) rfl
  | notRefused hpoison =>
    exact answering_of_not_disturbs (not_disturbs (by simp) (by simp) fun _ => hpoison) trivial
  | @drainWait c acq acq' hacq =>
    refine answering_of_not_disturbs (not_disturbs (by simp) (by simp) fun hchecks => ?_) trivial
    refine Acquire.not_poisoned hacq ?_
    cases acq with
    | checkPoison seen => exact ⟨seen, rfl⟩
    | _ => cases hchecks
  | @acquireWait acq acq' hacq =>
    refine answering_of_not_disturbs (not_disturbs (by simp) (by simp) fun hchecks => ?_) trivial
    refine Acquire.not_poisoned hacq ?_
    cases acq with
    | checkPoison seen => exact ⟨seen, rfl⟩
    | _ => cases hchecks
  | _ =>
    refine answering_of_not_disturbs (not_disturbs (by simp) (by simp) fun hchecks => ?_) trivial
    cases hchecks

/-- **One operation of a task that answers.** It goes on answering, unless it is disturbed, and then
it fails. -/
theorem Pc.Steps.answering {P : GlobalProtocol V} {sh sh' : Shared} {pc pc' : Pc V} {e : Event}
    (h : pc.Steps P sh e sh' pc') (ha : pc.Answering) :
    (¬ Disturbs sh pc e → pc'.Answering) ∧ (Disturbs sh pc e → pc'.Failing) := by
  have honward : e ≠ .cancel → e ≠ .ioError → pc.checksPoison = false → pc'.Answering →
      (¬ Disturbs sh pc e → pc'.Answering) ∧ (Disturbs sh pc e → pc'.Failing) := by
    intro hcancel hio hchecks ha'
    refine answering_of_not_disturbs (not_disturbs hcancel hio fun hchecks' => ?_) ha'
    rw [hchecks] at hchecks'
    cases hchecks'
  cases h with
  | @acquireWriter op t wait e sh' pc' hwait =>
    cases op with
    | respond answer => exact hwait.answering
    | _ => exact False.elim ha
  | @write op =>
    cases op with
    | respond answer => exact honward (by simp) (by simp) rfl trivial
    | _ => exact False.elim ha
  | @push op =>
    cases op with
    | respond answer => exact honward (by simp) (by simp) rfl trivial
    | _ => exact False.elim ha
  | @flushed op =>
    cases op with
    | respond answer => exact honward (by simp) (by simp) rfl rfl
    | _ => exact False.elim ha
  | @writeIoError op =>
    cases op with
    | respond answer => exact failing_of_disturbs (.inr (.inl rfl)) rfl
    | _ => exact False.elim ha
  | writeCancel => exact failing_of_disturbs (.inl rfl) rfl
  | dropAct => exact honward (by simp) (by simp) rfl ha
  | @resume next =>
    cases next with
    | finish o => exact honward (by simp) (by simp) rfl ha
    | drain op t =>
      cases op with
      | respond answer => exact honward (by simp) (by simp) rfl trivial
      | _ => exact False.elim ha
    | _ => exact False.elim ha
  | _ => exact False.elim ha

/-- Called to answer, a task answers. -/
theorem Pc.Steps.answering_of_respond {P : GlobalProtocol V} {sh sh' : Shared} {pc pc' : Pc V}
    {answer : Answer} (h : pc.Steps P sh (.respond answer) sh' pc') : pc'.Answering := by
  cases h with
  | respond => trivial
  | acquireWriter hwait => cases hwait

/-- A task that fails goes on failing. -/
theorem Pc.Steps.failing {P : GlobalProtocol V} {sh sh' : Shared} {pc pc' : Pc V} {e : Event}
    (h : pc.Steps P sh e sh' pc') (hf : pc.Failing) : pc'.Failing := by
  cases h with
  | @dropAct act acts next =>
    cases next with
    | finish o => exact hf
    | _ => exact False.elim hf
  | @resume next =>
    cases next with
    | finish o => exact hf
    | _ => exact False.elim hf
  | _ => exact False.elim hf

end Conversation

/-! ## The call

`accept_unix_forward` around the task: it binds, answers, and returns a listener with a guard for
the file. The files are a set of paths, and a listener that is dropped removes its own. -/

/-- Removes the file at its path when it is dropped. -/
structure UnixSocketGuard where
  /-- The file to be removed. -/
  path : String
  deriving DecidableEq

/-- `remove_file`, whose error is ignored. -/
def UnixSocketGuard.drop (g : UnixSocketGuard) (files : Finset String) : Finset String :=
  files.erase g.path

/-- The listening socket itself has no effect on the files. -/
structure UnixForwardListener where
  guard : UnixSocketGuard
  deriving DecidableEq

/-- What `UnixListener::bind` does: it fails, or listens, with a new file at the path or, in the
abstract namespace, with none. -/
inductive BindOutcome where
  | refused
  | bound (file : Bool)
  deriving DecidableEq

namespace UnixAccept

/-- Where the call is; `file` tells whether it has created a file. -/
inductive Place where
  /-- Called, not polled. -/
  | called
  /-- The socket is not bound, the failure is being written. -/
  | refusing
  /-- The socket is bound, the success is being written. -/
  | responding (file : Bool)
  | returned (result : Except AcceptUnixForwardError UnixForwardListener) (file : Bool)
  /-- The future has been dropped. -/
  | dropped (file : Bool)
  /-- Returned, and the caller has dropped the listener. -/
  | closed (file : Bool)
  deriving DecidableEq

end UnixAccept

/-- The call in progress, with the conversation and the files. -/
structure UnixAccept (V : Type) where
  /-- Where it is. -/
  place : UnixAccept.Place
  /-- All tasks; the call is one of them. -/
  conversation : Conversation V
  /-- The paths at which there is a socket file. -/
  files : Finset String

namespace UnixAccept

/-- What happens to the call, and around it. -/
inductive Action where
  /-- The first poll: the socket is bound or not, and the answer begun. -/
  | bind (outcome : BindOutcome)
  /-- The future is dropped before it is polled. -/
  | dropCalled
  /-- A step of any task, or of the peer. -/
  | conversation (a : Conversation.Action)
  /-- What is left to do when the answer has ended. -/
  | finish
  /-- The caller drops the listener. -/
  | close
  /-- The files change elsewhere. -/
  | elsewhere (files : Finset String)

variable {V : Type}

/-- An action of task `i`. -/
def isTask (i : ℕ) : Conversation.Action → Bool
  | .task j _ => j == i
  | .arrive _ => false

/-- It has not been polled. -/
def Place.isCalled : Place → Bool
  | .called => true
  | _ => false

/-- What the call returns when its answer has ended so, or that it has been dropped. -/
def ended (path : String) (o : Conversation.Outcome V) : Place → Option Place
  | .refusing =>
    match o with
    | .respond _ => some (.returned (.error .unixBind) false)
    | .dropped => some (.dropped false)
    | _ => none
  | .responding file =>
    match o with
    | .respond (.ok ()) => some (.returned (.ok ⟨⟨path⟩⟩) file)
    | .respond (.error _) => some (.returned (.error .respond) file)
    | .dropped => some (.dropped file)
    | _ => none
  | _ => none

variable (P : Conversation.GlobalProtocol V) (i : ℕ) (path : String)

/-- `accept_unix_forward` by task `i`, which has decoded a request for a socket at `path`. -/
def step (s : UnixAccept V) : Action → Option (UnixAccept V)
  | .bind outcome =>
    match s.place, outcome with
    | .called, .refused =>
      (s.conversation.step P (.task i (.respond .failure))).map fun c =>
        { s with place := .refusing, conversation := c }
    | .called, .bound file =>
      if file = true ∧ path ∈ s.files then none
      else
        (s.conversation.step P (.task i (.respond (.success [])))).map fun c =>
          { place := .responding file
            conversation := c
            files := if file then insert path s.files else s.files }
    | _, _ => none
  | .dropCalled =>
    match s.place with
    | .called =>
      (s.conversation.step P (.task i .drop)).map fun c =>
        { s with place := .dropped false, conversation := c }
    | _ => none
  | .conversation a =>
    if s.place.isCalled && isTask i a then none
    else (s.conversation.step P a).map fun c => { s with conversation := c }
  | .finish =>
    match s.conversation.tasks i with
    | .finished o => (ended path o s.place).map fun place => { s with place := place }
    | _ => none
  | .close =>
    match s.place with
    | .returned (.ok l) file => some { s with place := .closed file, files := l.guard.drop s.files }
    | _ => none
  | .elsewhere files =>
    -- nobody else touches the path
    if path ∈ files ↔ path ∈ s.files then some { s with files := files } else none

/-- The call, from any state of the conversation and the files. -/
def machine (c : Conversation V) (files : Finset String) : Machine (UnixAccept V) Action :=
  ⟨⟨.called, c, files⟩, step P i path⟩

/-- The call is over. -/
def Place.isEnd : Place → Bool
  | .returned _ _ => true
  | .dropped _ => true
  | .closed _ => true
  | _ => false

/-- What is asked of the call when it is over. -/
structure Kept (s : UnixAccept V) : Prop where
  /-- Without a listener for the caller, no file that it has created is left. -/
  notHanded : ∀ file, (s.place = .dropped file ∨ ∃ e, s.place = .returned (.error e) file) →
    file = true → path ∉ s.files
  /-- With one, its guard removes that file and no other. -/
  handed : ∀ l file, s.place = .returned (.ok l) file →
    (file = true → path ∈ s.files) ∧ ∀ files, l.guard.drop files = files.erase path
  /-- And when the listener is dropped, the file is removed. -/
  closed : ∀ file, s.place = .closed file → file = true → path ∉ s.files

/-- Nothing goes wrong while the call answers and its file has been created. -/
def Undisturbed (s : UnixAccept V) (a : Action) : Prop :=
  s.place = .responding true → ∀ e, a = .conversation (.task i e) →
    ¬ Conversation.Disturbs s.conversation.shared (s.conversation.tasks i) e

/-! ## What a run keeps

A call that has not gone wrong is going to have a listener, or an error without a file. One that
has gone wrong has a file without a listener, and keeps it. -/

variable {P i path}
variable {s s' : UnixAccept V} {a : Action}

/-- The file that has been created is there until the listener is dropped, and a listener has its
guard. -/
def Consistent (path : String) (s : UnixAccept V) : Prop :=
  match s.place with
  | .responding file => file = true → path ∈ s.files
  | .returned (.ok l) file => l.guard.path = path ∧ (file = true → path ∈ s.files)
  | .returned (.error _) file => file = true → path ∈ s.files
  | .dropped file => file = true → path ∈ s.files
  | .closed _ => path ∉ s.files
  | _ => True

/-- The call has not gone wrong: what it has created is in good hands. -/
def Good (i : ℕ) (s : UnixAccept V) : Prop :=
  match s.place with
  | .responding file => file = true → (s.conversation.tasks i).Answering
  | .returned (.error _) file => file = false
  | .dropped file => file = false
  | _ => True

/-- It has gone wrong for good. -/
def Bad (i : ℕ) (s : UnixAccept V) : Prop :=
  match s.place with
  | .responding file => file = true ∧ (s.conversation.tasks i).Failing
  | .returned (.error _) file => file = true
  | .dropped file => file = true
  | _ => False

/-- A step of the conversation, as task `i` sees it. -/
theorem tasks_of_step {c c' : Conversation V} {a : Conversation.Action} (h : c.step P a = some c') :
    c'.tasks i = c.tasks i ∨ ∃ e, a = .task i e ∧
      (c.tasks i).Steps P c.shared e c'.shared (c'.tasks i) := by
  cases a with
  | arrive bytes =>
    obtain rfl := Option.some.inj h
    exact .inl rfl
  | task j e =>
    obtain ⟨pc', hst, htasks⟩ := Conversation.step_task h
    by_cases hj : j = i
    · subst hj
      refine .inr ⟨e, rfl, ?_⟩
      rw [htasks, Function.update_self]
      exact hst
    · rw [htasks, Function.update_of_ne (Ne.symm hj)]
      exact .inl rfl

/-- What a step of the call can do. -/
inductive Steps (P : Conversation.GlobalProtocol V) (i : ℕ) (path : String) (s : UnixAccept V) :
    Action → UnixAccept V → Prop
  | refused {c : Conversation V} (hplace : s.place = .called)
      (hc : s.conversation.step P (.task i (.respond .failure)) = some c) :
      Steps P i path s (.bind .refused) ⟨.refusing, c, s.files⟩
  | bound {c : Conversation V} {file : Bool} (hplace : s.place = .called)
      (hc : s.conversation.step P (.task i (.respond (.success []))) = some c) :
      Steps P i path s (.bind (.bound file))
        ⟨.responding file, c, if file then insert path s.files else s.files⟩
  | dropCalled {c : Conversation V} (hplace : s.place = .called)
      (hc : s.conversation.step P (.task i .drop) = some c) :
      Steps P i path s .dropCalled ⟨.dropped false, c, s.files⟩
  | conversation {a : Conversation.Action} {c : Conversation V}
      (hc : s.conversation.step P a = some c) :
      Steps P i path s (.conversation a) ⟨s.place, c, s.files⟩
  | finish {o : Conversation.Outcome V} {place : Place} (ho : s.conversation.tasks i = .finished o)
      (hplace : ended path o s.place = some place) :
      Steps P i path s .finish ⟨place, s.conversation, s.files⟩
  | close {l : UnixForwardListener} {file : Bool} (hplace : s.place = .returned (.ok l) file) :
      Steps P i path s .close ⟨.closed file, s.conversation, l.guard.drop s.files⟩
  | elsewhere {files : Finset String} (hpath : path ∈ files ↔ path ∈ s.files) :
      Steps P i path s (.elsewhere files) ⟨s.place, s.conversation, files⟩

/-- The step function takes these steps. -/
theorem Steps.of_step (h : step P i path s a = some s') : Steps P i path s a s' := by
  cases a with
  | bind outcome =>
    simp only [step] at h
    split at h
    · rename_i hplace
      obtain ⟨c, hc, rfl⟩ := Option.map_eq_some_iff.mp h
      exact .refused hplace hc
    · rename_i file hplace
      split at h
      · cases h
      · obtain ⟨c, hc, rfl⟩ := Option.map_eq_some_iff.mp h
        exact .bound hplace hc
    · cases h
  | dropCalled =>
    simp only [step] at h
    split at h
    · rename_i hplace
      obtain ⟨c, hc, rfl⟩ := Option.map_eq_some_iff.mp h
      exact .dropCalled hplace hc
    · cases h
  | conversation b =>
    simp only [step] at h
    split at h
    · cases h
    · obtain ⟨c, hc, rfl⟩ := Option.map_eq_some_iff.mp h
      exact .conversation hc
  | finish =>
    simp only [step] at h
    split at h
    · rename_i o ho
      obtain ⟨place, hplace, rfl⟩ := Option.map_eq_some_iff.mp h
      exact .finish ho hplace
    · cases h
  | close =>
    simp only [step] at h
    split at h
    · rename_i l file hplace
      obtain rfl := Option.some.inj h
      exact .close hplace
    · cases h
  | elsewhere files =>
    simp only [step] at h
    split at h
    · rename_i hpath
      obtain rfl := Option.some.inj h
      exact .elsewhere hpath
    · cases h

/-- How the call can end. -/
theorem ended_eq_some {o : Conversation.Outcome V} {place place' : Place}
    (h : ended path o place = some place') :
    (place = .refusing ∧ (place' = .returned (.error .unixBind) false ∨ place' = .dropped false)) ∨
    ∃ file, place = .responding file ∧
      ((o.answered = true ∧ place' = .returned (.ok ⟨⟨path⟩⟩) file) ∨
        (o.answered = false ∧
          (place' = .returned (.error .respond) file ∨ place' = .dropped file))) := by
  unfold ended at h
  split at h
  · split at h
    · exact .inl ⟨rfl, .inl (Option.some.inj h).symm⟩
    · exact .inl ⟨rfl, .inr (Option.some.inj h).symm⟩
    · cases h
  · rename_i file
    split at h
    · exact .inr ⟨file, rfl, .inl ⟨rfl, (Option.some.inj h).symm⟩⟩
    · exact .inr ⟨file, rfl, .inr ⟨rfl, .inl (Option.some.inj h).symm⟩⟩
    · exact .inr ⟨file, rfl, .inr ⟨rfl, .inr (Option.some.inj h).symm⟩⟩
    · cases h
  · cases h

/-- Changes of other files do not matter. -/
theorem Consistent.elsewhere {files : Finset String} (h : Consistent path s)
    (hpath : path ∈ files ↔ path ∈ s.files) :
    Consistent path ⟨s.place, s.conversation, files⟩ := by
  unfold Consistent at h ⊢
  obtain ⟨place, c, files'⟩ := s
  cases place with
  | returned r file =>
    cases r with
    | ok l => exact ⟨h.1, fun hfile => hpath.mpr (h.2 hfile)⟩
    | error e => exact fun hfile => hpath.mpr (h hfile)
  | responding file => exact fun hfile => hpath.mpr (h hfile)
  | dropped file => exact fun hfile => hpath.mpr (h hfile)
  | closed file => exact fun hmem => h (hpath.mp hmem)
  | called => trivial
  | refusing => trivial

/-- Every step keeps the file where it is supposed to be. -/
theorem Consistent.step (h : Consistent path s) (hstep : Steps P i path s a s') :
    Consistent path s' := by
  cases hstep with
  | refused => trivial
  | @bound c file hplace hc =>
    intro hfile
    show path ∈ if file = true then insert path s.files else s.files
    rw [if_pos hfile]
    exact Finset.mem_insert_self path s.files
  | dropCalled => exact fun hfile => absurd hfile (by decide)
  | conversation hc => exact h
  | finish ho hplace =>
    obtain ⟨-, rfl | rfl⟩ | ⟨file, hfile, ⟨-, rfl⟩ | ⟨-, rfl | rfl⟩⟩ := ended_eq_some hplace
    · exact fun hfile => absurd hfile (by decide)
    · exact fun hfile => absurd hfile (by decide)
    · rw [Consistent, hfile] at h
      exact ⟨rfl, h⟩
    · rw [Consistent, hfile] at h
      exact h
    · rw [Consistent, hfile] at h
      exact h
  | @close l file hplace =>
    rw [Consistent, hplace] at h
    show path ∉ s.files.erase l.guard.path
    rw [h.1]
    exact Finset.notMem_erase path s.files
  | elsewhere hpath => exact h.elsewhere hpath

/-- Begun, the answer is on its way. -/
theorem answering_of_respond {c c' : Conversation V} {answer : Conversation.Answer}
    (h : c.step P (.task i (.respond answer)) = some c') : (c'.tasks i).Answering := by
  obtain ⟨pc', hst, htasks⟩ := Conversation.step_task h
  rw [htasks, Function.update_self]
  exact hst.answering_of_respond

/-- **A step that is not disturbed.** -/
theorem Good.step (h : Good i s) (hok : Undisturbed i s a) (hstep : Steps P i path s a s') :
    Good i s' := by
  cases hstep with
  | refused => trivial
  | bound hplace hc => exact fun _ => answering_of_respond hc
  | dropCalled => rfl
  | @conversation b c' hc =>
    obtain ⟨place, c, files⟩ := s
    cases place with
    | responding file =>
      rintro rfl
      show (c'.tasks i).Answering
      obtain hsame | ⟨e, rfl, hst⟩ := tasks_of_step (i := i) hc
      · rw [hsame]
        exact h rfl
      · exact (hst.answering (h rfl)).1 (hok rfl e rfl)
    | returned r file => cases r <;> exact h
    | _ => exact h
  | finish ho hplace =>
    obtain ⟨-, rfl | rfl⟩ | ⟨file, hfile, ⟨-, rfl⟩ | ⟨hfailed, rfl | rfl⟩⟩ := ended_eq_some hplace
    · rfl
    · rfl
    · trivial
    all_goals
      rw [Good, hfile] at h
      show file = false
      by_contra hne
      have hanswered := h (Bool.eq_true_of_not_eq_false hne)
      rw [ho] at hanswered
      exact Bool.false_ne_true (hfailed.symm.trans hanswered)
  | close hplace => trivial
  | elsewhere hpath => exact h

/-- **A step that is.** -/
theorem Good.bad (h : Good i s) (hnot : ¬ Undisturbed i s a) (hstep : Steps P i path s a s') :
    Bad i s' := by
  unfold Undisturbed at hnot
  simp only [Classical.not_imp, not_forall, not_not] at hnot
  obtain ⟨hplace, e, rfl, hdisturbs⟩ := hnot
  cases hstep with
  | conversation hc =>
    obtain ⟨place, c, files⟩ := s
    obtain rfl : place = .responding true := hplace
    obtain ⟨pc', hst, htasks⟩ := Conversation.step_task hc
    refine ⟨rfl, ?_⟩
    rw [htasks, Function.update_self]
    exact (hst.answering (h rfl)).2 hdisturbs

/-- What has gone wrong stays so. -/
theorem Bad.step (h : Bad i s) (hstep : Steps P i path s a s') : Bad i s' := by
  cases hstep with
  | refused hplace | bound hplace | dropCalled hplace | close hplace =>
    rw [Bad, hplace] at h
    exact False.elim h
  | @conversation b c' hc =>
    obtain ⟨place, c, files⟩ := s
    cases place with
    | responding file =>
      refine ⟨h.1, ?_⟩
      show (c'.tasks i).Failing
      obtain hsame | ⟨e, rfl, hst⟩ := tasks_of_step (i := i) hc
      · rw [hsame]
        exact h.2
      · exact hst.failing h.2
    | returned r file => cases r <;> exact h
    | _ => exact h
  | finish ho hplace =>
    obtain ⟨hrefusing, -⟩ | ⟨file, hfile, ⟨hanswered, -⟩ | ⟨-, rfl | rfl⟩⟩ := ended_eq_some hplace
    · rw [Bad, hrefusing] at h
      exact False.elim h
    all_goals rw [Bad, hfile] at h
    · have hfailing := h.2
      rw [ho] at hfailing
      exact absurd (hfailing.symm.trans hanswered) Bool.false_ne_true
    · exact h.1
    · exact h.1
  | elsewhere hpath => exact h

/-! ## The end of a run

The two cases exclude each other at the end, so that the condition on the steps is exact. -/

variable {c : Conversation V} {files : Finset String}

/-- In every state of a run. -/
theorem consistent_of_path {l : List (UnixAccept V × Action)}
    (h : (machine P i path c files).Path l s) : Consistent path s := by
  have hinit : Consistent path (machine P i path c files).init := trivial
  refine h.reachable.invariant (I := Consistent path) hinit ?_
  intro s a s' _ hs _ hstep
  exact hs.step (.of_step hstep)

/-- A run is in good hands as long as it has not been disturbed, and not after that. -/
theorem good_or_bad {l : List (UnixAccept V × Action)}
    (h : (machine P i path c files).Path l s) :
    (Good i s ∧ ∀ x ∈ l, Undisturbed i x.1 x.2) ∨ Bad i s ∧ ¬ ∀ x ∈ l, Undisturbed i x.1 x.2 := by
  have hinit : Good i (machine P i path c files).init := trivial
  refine h.good_or_bad (P := Good i) (Q := Bad i) hinit ?_ ?_ ?_
  · intro s a s' hs hok hstep
    exact hs.step hok (.of_step hstep)
  · intro s a s' hs hnot hstep
    exact hs.bad hnot (.of_step hstep)
  · intro s a s' hs hstep
    exact hs.step (.of_step hstep)

/-- In good hands, the file is kept. -/
theorem Good.kept (h : Good i s) (hs : Consistent path s) : Kept path s := by
  obtain ⟨place, c, files⟩ := s
  refine ⟨?_, ?_, ?_⟩
  · rintro file (hplace | ⟨e, hplace⟩) hfile
    all_goals
      obtain rfl : place = _ := hplace
      exact absurd (hfile.symm.trans h) (by decide)
  · intro l file hplace
    obtain rfl : place = _ := hplace
    refine ⟨hs.2, fun files' => ?_⟩
    unfold UnixSocketGuard.drop
    rw [hs.1]
  · intro file hplace _
    obtain rfl : place = _ := hplace
    exact hs

/-- When the call has gone wrong, the file is left behind. -/
theorem Bad.not_kept (h : Bad i s) (hs : Consistent path s) (hend : s.place.isEnd = true) :
    ¬ Kept path s := by
  intro hkept
  obtain ⟨place, c, files⟩ := s
  cases place with
  | returned r file =>
    cases r with
    | ok l => exact h
    | error e => exact hkept.notHanded file (.inr ⟨e, rfl⟩) h (hs h)
  | dropped file => exact hkept.notHanded file (.inl rfl) h (hs h)
  | called | refusing | closed => exact h
  | responding file => cases hend

/-- Only a bind that creates the file changes the files, as far as the call goes. -/
theorem files_of_step (h : Steps P i path s a s') :
    s'.files = s.files ∨ a = .bind (.bound true) ∨ a = .close ∨ ∃ files, a = .elsewhere files := by
  cases h with
  | @bound c file =>
    cases file with
    | false => exact .inl rfl
    | true => exact .inr (.inl rfl)
  | close => exact .inr (.inr (.inl rfl))
  | elsewhere => exact .inr (.inr (.inr ⟨_, rfl⟩))
  | refused | dropCalled | conversation | finish => exact .inl rfl

/-- **The file is kept, exactly when.** When the call is over, however it has ended, there is no
file without a listener, and a listener has the guard of the file, exactly when its answer was not
disturbed while the file was there. A bind that fails, and all that follows it, does not change the
files. -/
theorem kept_iff {l : List (UnixAccept V × Action)} (h : (machine P i path c files).Path l s) :
    ((∀ x ∈ l, Undisturbed i x.1 x.2) → Kept path s) ∧
    (s.place.isEnd = true → (Kept path s ↔ ∀ x ∈ l, Undisturbed i x.1 x.2)) ∧
    ∀ a s', step P i path s a = some s' → s'.files = s.files ∨ a = .bind (.bound true) ∨
      a = .close ∨ ∃ files, a = .elsewhere files := by
  have hs := consistent_of_path h
  refine ⟨fun hall => ?_, fun hend => ?_, fun a s' hstep => files_of_step (.of_step hstep)⟩
  · obtain ⟨hgood, -⟩ | ⟨-, hnot⟩ := good_or_bad h
    · exact hgood.kept hs
    · exact absurd hall hnot
  · obtain ⟨hgood, hall⟩ | ⟨hbad, hnot⟩ := good_or_bad h
    · exact iff_of_true (hgood.kept hs) hall
    · exact iff_of_false (hbad.not_kept hs hend) hnot

/-! ## Two runs

The same call with and without somebody in front of it in the queue of the writer. -/

/-- Task 0 decodes a request, with a ticket for its answer. -/
def decodes : List Conversation.Action :=
  .arrive (Conversation.ControlMessage.globalRequest ⟨"", []⟩ true).encode ::
    .task 0 .acceptGlobalRequest :: List.replicate 8 (.task 0 .run) ++
    .task 0 .decodePayload :: List.replicate 4 (.task 0 .run)

/-- It binds the socket, answers at once, and returns. -/
def answers : List Action :=
  .bind (.bound true) :: List.replicate 6 (.conversation (.task 0 .run)) ++
    [.conversation (.task 0 (.write 2)), .conversation (.task 0 (.push 2))] ++
    List.replicate 4 (.conversation (.task 0 .run)) ++ [.finish]

/-- The file is the listener's, and nothing was disturbed. -/
theorem answers_kept_iff :
    ∃ c l s, (Conversation.machine .empty).exec Conversation.initial decodes = some c ∧
      (machine .empty 0 "s" c ∅).Path l s ∧ s.place = .returned (.ok ⟨⟨"s"⟩⟩) true ∧
      (Kept "s" s ↔ ∀ x ∈ l, Undisturbed 0 x.1 x.2) := by
  have hrun : ((Conversation.machine .empty).exec Conversation.initial decodes).any
      (fun c => ((machine .empty 0 "s" c ∅).exec (machine .empty 0 "s" c ∅).init answers).any
        fun s => decide (s.place = .returned (.ok ⟨⟨"s"⟩⟩) true)) = true := by
    decide
  obtain ⟨c, hc, htest⟩ := (Option.any_eq_true _ _).mp hrun
  obtain ⟨s, hs, hplace⟩ := (Option.any_eq_true _ _).mp htest
  have hplace := of_decide_eq_true hplace
  have hpath := Machine.Path.of_exec hs
  exact ⟨c, _, s, hc, hpath, hplace, (kept_iff hpath).2.1 (by rw [hplace]; rfl)⟩

/-- It binds the socket, and waits for its turn behind task 1. -/
def waits : List Action :=
  .bind (.bound true) :: List.replicate 6 (.conversation (.task 0 .run))

/-- Dropped there, it leaves the file. -/
theorem waiting_dropped :
    ∃ c s, (Conversation.machine .empty).exec Conversation.initial
        (.task 1 (.sendGlobalNotification ⟨"", []⟩) :: decodes) = some c ∧
      (machine .empty 0 "s" c ∅).exec (machine .empty 0 "s" c ∅).init
        (waits ++ [.conversation (.task 0 .cancel), .finish]) = some s ∧
      s.place = .dropped true ∧ "s" ∈ s.files ∧ ¬ Kept "s" s := by
  have hrun : ((Conversation.machine .empty).exec Conversation.initial
      (.task 1 (.sendGlobalNotification ⟨"", []⟩) :: decodes)).any
      (fun c => ((machine .empty 0 "s" c ∅).exec (machine .empty 0 "s" c ∅).init
        (waits ++ [.conversation (.task 0 .cancel), .finish])).any
        fun s => decide (s.place = .dropped true ∧ "s" ∈ s.files)) = true := by
    decide
  obtain ⟨c, hc, htest⟩ := (Option.any_eq_true _ _).mp hrun
  obtain ⟨s, hs, htest⟩ := (Option.any_eq_true _ _).mp htest
  obtain ⟨hplace, hfile⟩ := of_decide_eq_true htest
  exact ⟨c, s, hc, hs, hplace, hfile, fun hkept => hkept.notHanded true (.inl hplace) rfl hfile⟩

end UnixAccept

end Dssh
