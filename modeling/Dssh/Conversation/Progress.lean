import Dssh.Conversation.ReaderWait

/-!
# Progress

Tasks wait for each other in three places: for the mutex of the ticket pairs, for the writer and
for the reader. The mutex is held by a task that does not wait. Who has the reader may wait for
the application, to decode or to drop what has come in, or for the peer to send the rest of it,
but never for the writer: the reply ticket of a request is taken under the reader guard, and
used behind it. A request that has not been sent waits for the writer with a reader ticket in
its hands, so readers wait for writers. Writers wait for those before them, and so in the end
for an answer of the application.

There are three ways in which a task could wait for ever: its writer or its reader ticket is
behind one that has been lost, or behind an automatic failure that nobody looks at.
`Undisturbed` says that a step is none of these.

## What progress means

There is no fairness in the machine, so "everybody gets served in the end" cannot be said. What
is said is that the system is never stuck by itself. As long as any task waits for its turn,
some task can perform an operation on its own, without the application, without new bytes from
the peer and without a failure; or the turn is with somebody who waits for just these. In the
second case the result names who it is: a task with the reader guard that waits for bytes, or an
object in the hands of the application that holds the guard or the ticket being served.

So an application that neither decodes nor drops an incoming request blocks the others, and so
does a peer that stops in the middle of a message. Both are by design.

## How the proof goes

`Rest` lists the places where a task can do nothing on its own; the list comes from the step
function (`Rest.of_blocked`). If all tasks are at such places, nobody is in drop glue, so no
notification is pending, and every parked task is parked rightly: its ticket is not the one
being served. The ticket being served is with somebody, as none has been lost. The places where
this somebody can be are few, and each leads to the application, to the peer, or from the reader
to the writer. There is no way back from the writer to the reader, so the argument ends.

## Main definitions

* `Pc.Blocked`, `Pc.Rest` — a task can do nothing on its own, and where that is
* `Conversation.Stuck` — no task can
* `Conversation.Undisturbed` — no ticket is lost and no automatic failure overlooked

## Main results

* `Conversation.Pc.Rest.of_blocked` — where a task can do nothing on its own
* `Conversation.waiting_progress` — as long as anybody waits, some task can go on, or the ticket
  being served is in the hands of one that waits for the peer or for the application
-/

namespace Dssh

open TicketQueue

namespace Conversation

variable {V : Type}

/-! ## Where a task stands still

An operation of a task itself needs nobody else, unless it is one of a few: taking the mutex, an
`await` in `acquire`, reading a byte that has not come, and what the application is to do with an
object it has been given. The list is complete, and this is a case analysis over all places. -/

/-- What a task does without the application, and without a failure. -/
def Event.isOwn : Event → Bool
  | run => true
  | write _ => true
  | push _ => true
  | _ => false

namespace Pc

/-- None of its own operations is enabled. -/
def Blocked (P : GlobalProtocol V) (sh : Shared) (pc : Pc V) : Prop :=
  ∀ e : Event, e.isOwn = true → pc.step P sh e = none

/-- Waiting for the mutex or for a ticket. -/
def Waits : Pc V → Prop
  | pairLock _ => True
  | acquireWriter _ _ _ => True
  | acquireReader _ _ _ => True
  | _ => False

/-- About to read a byte. -/
def AwaitsByte : Pc V → Prop
  | readingHeader _ _ (.read _ _) => True
  | readingResponse _ _ _ _ (.read _ _) => True
  | readingPayload _ _ _ _ (.read _ _) => True
  | _ => False

/-- An object in the hands of the application. -/
def AwaitsApplication : Pc V → Prop
  | incoming _ _ _ _ => True
  | decoded _ _ _ => True
  | _ => False

/-- The places where a task can do nothing on its own. -/
inductive Rest (sh : Shared) : Pc V → Prop
  /-- Nothing has been called. -/
  | idle : Rest sh .idle
  /-- It is through. -/
  | finished {o : Outcome V} : Rest sh (.finished o)
  /-- The mutex is taken. -/
  | locked {rq : GlobalRequest} (hlock : sh.ticketPairLock = true) : Rest sh (.pairLock rq)
  /-- It is parked for the writer. -/
  | writer {pc : Pc V} {t : ℕ} (hparked : pc.parked = some (t, sh.writer.notifyCalls)) : Rest sh pc
  | reader {op : ReadOp} {t : ℕ} : Rest sh (.acquireReader op t (.await sh.reader.notifyCalls))
  | byte {pc : Pc V} (hbyte : pc.AwaitsByte) (hincoming : sh.incoming = []) : Rest sh pc
  | application {pc : Pc V} (happlication : pc.AwaitsApplication) : Rest sh pc

variable {P : GlobalProtocol V} {sh : Shared}

/-- Bytes that are not handed over or not on the wire yet can go there. -/
theorem exists_own_of_write {pc : Pc V} (rest : List UInt8)
    (hwrite : ∀ n, 0 < n → n ≤ rest.length → (pc.step P sh (.write n)).isSome = true)
    (hpush : ∀ n, 0 < n → n ≤ sh.buffer.length → (pc.step P sh (.push n)).isSome = true)
    (hflush : rest = [] → sh.buffer = [] → (pc.step P sh .run).isSome = true) :
    ¬ pc.Blocked P sh := by
  intro h
  cases rest with
  | cons b rest =>
    have hsome := hwrite 1 Nat.one_pos (by simp)
    rw [h (.write 1) rfl] at hsome
    cases hsome
  | nil =>
    cases hbuffer : sh.buffer with
    | cons b buffer =>
      have hsome := hpush 1 Nat.one_pos (by simp [hbuffer])
      rw [h (.push 1) rfl] at hsome
      cases hsome
    | nil =>
      have hsome := hflush rfl hbuffer
      rw [h .run rfl] at hsome
      cases hsome

/-- Inside of `acquire_writer`, it is parked. -/
theorem parked_of_blocked {op : WriteOp} {t : ℕ} {wait : WriterWait}
    (h : (acquireWriter op t wait : Pc V).Blocked P sh) :
    (acquireWriter op t wait : Pc V).parked = some (t, sh.writer.notifyCalls) := by
  have hrun : stepAcquireWriter (V := V) sh op t wait .run = none := h .run rfl
  cases wait with
  | drainRemove current =>
    rw [stepAcquireWriter] at hrun
    split at hrun <;> cases hrun
  | drainAcquire current acq =>
    rw [stepAcquireWriter] at hrun
    split at hrun
    case h_1 hacq =>
      rw [Acquire.of_step_eq_none hacq]
      rfl
    all_goals cases hrun
  | drainWrite current rest =>
    refine absurd h (exists_own_of_write rest (fun n hpos hle => ?_)
      (fun n hpos hle => ?_) fun hrest hbuffer => ?_)
    · simp [Pc.step, stepAcquireWriter, hpos, hle]
    · simp [Pc.step, stepAcquireWriter, hpos, hle]
    · simp [Pc.step, stepAcquireWriter, hrest, hbuffer]
  | await seen =>
    rw [stepAcquireWriter] at hrun
    split at hrun
    case isTrue hseen =>
      rw [hseen]
      rfl
    case isFalse => cases hrun
  | acquire acq =>
    rw [stepAcquireWriter] at hrun
    split at hrun
    case h_1 hacq =>
      rw [Acquire.of_step_eq_none hacq]
      rfl
    all_goals cases hrun
  | _ => cases hrun

/-- **Where a task stands still.** -/
theorem Rest.of_blocked {pc : Pc V} (h : pc.Blocked P sh) : pc.Rest sh := by
  have hrun := h .run rfl
  cases pc with
  | idle => exact .idle
  | finished o => exact .finished
  | pairLock rq =>
    cases hlock : sh.ticketPairLock with
    | true => exact .locked hlock
    | false => simp [Pc.step, hlock] at hrun
  | acquireWriter op t wait => exact .writer (parked_of_blocked h)
  | writing op t rest =>
    refine absurd h (exists_own_of_write rest (fun n hpos hle => ?_)
      (fun n hpos hle => ?_) fun hrest hbuffer => ?_)
    · simp [Pc.step, hpos, hle]
    · simp [Pc.step, hpos, hle]
    · simp [Pc.step, hrest, hbuffer]
  | acquireReader op t acq =>
    rw [Pc.step] at hrun
    split at hrun
    case h_1 hacq =>
      rw [Acquire.of_step_eq_none hacq]
      exact .reader
    all_goals cases hrun
  | readingHeader t got d =>
    cases d with
    | read io k =>
      refine .byte trivial ?_
      cases hincoming : sh.incoming with
      | nil => rfl
      | cons b rest => simp [Pc.step, hincoming] at hrun
    | fail err => cases hrun
    | done header =>
      obtain ⟨ty, wantReply⟩ := header
      cases wantReply <;> cases hrun
  | readingResponse rq w t got d =>
    cases d with
    | read io k =>
      refine .byte trivial ?_
      cases hincoming : sh.incoming with
      | nil => rfl
      | cons b rest => simp [Pc.step, hincoming] at hrun
    | fail err => cases hrun
    | done v => cases hrun
  | readingPayload ty t w got d =>
    cases d with
    | read io k =>
      refine .byte trivial ?_
      cases hincoming : sh.incoming with
      | nil => rfl
      | cons b rest => simp [Pc.step, hincoming] at hrun
    | fail err => cases hrun
    | done v => cases w <;> cases hrun
  | incoming ty t w got => exact .application trivial
  | decoded ty w v => exact .application trivial
  | unwinding acts next => cases acts <;> cases hrun
  | _ => cases hrun

/-- Drop glue never stands still. -/
theorem Rest.ne_unwinding {pc : Pc V} (h : pc.Rest sh) (acts : List DropAct) (next : After V) :
    pc ≠ .unwinding acts next := by
  rintro rfl
  generalize hpc : Pc.unwinding acts next = pc at h
  cases h with
  | writer hparked => subst hpc; cases hparked
  | byte hbyte => subst hpc; exact hbyte
  | application happlication => subst hpc; exact happlication
  | _ => cases hpc

end Pc

end Conversation

namespace Conversation

variable {V : Type} {P : GlobalProtocol V} {s : Conversation V} {i t : ℕ}

/-! ## Who is waited for

Suppose nobody can go on by itself. Nobody is in drop glue then, so nothing is pending for those
who are parked, and they are right to wait: the ticket being served is with somebody else.
Following the tickets, one comes to a task that waits for the peer or for the application. -/

/-- A task waits for the peer or for the application. -/
def AwaitsOthers (s : Conversation V) (i : ℕ) : Prop :=
  (s.tasks i).AwaitsByte ∧ s.shared.incoming = [] ∨ (s.tasks i).AwaitsApplication

/-- No task can do anything on its own. -/
def Stuck (P : GlobalProtocol V) (s : Conversation V) : Prop :=
  ∀ i, (s.tasks i).Blocked P s.shared

/-- Every task is at rest. -/
theorem Stuck.rest (h : s.Stuck P) (i : ℕ) : (s.tasks i).Rest s.shared := .of_blocked (h i)

/-- Nobody is in drop glue, so nothing is pending for those who wait. -/
theorem Stuck.quiet (h : s.Stuck P) : s.Quiet s.shared.writer.notifyCalls := by
  refine ⟨rfl, fun i howes => ?_⟩
  have hne := (h.rest i).ne_unwinding
  generalize s.tasks i = pc at howes hne
  cases pc with
  | unwinding acts next => exact hne acts next rfl
  | _ => exact howes

/-- The same for the readers. -/
theorem Stuck.quiet_readers (h : s.Stuck P) :
    (readerNotifier V).Quiet s s.shared.reader.notifyCalls := by
  refine ⟨rfl, ?_⟩
  rintro ⟨i, howes⟩
  have hne := (h.rest i).ne_unwinding
  generalize s.tasks i = pc at howes hne
  cases pc with
  | unwinding acts next => exact hne acts next rfl
  | _ => exact howes

/-- And nobody is about to poison the session. -/
theorem Stuck.not_willPoison (h : s.Stuck P) (i : ℕ) : ¬ (s.tasks i).WillPoison := by
  intro hwill
  have hne := (h.rest i).ne_unwinding
  generalize s.tasks i = pc at hwill hne
  cases pc with
  | unwinding acts next => exact hne acts next rfl
  | _ => exact hwill

/-- **The writer.** Where nobody can go on and somebody waits for the writer, the ticket being
served is the reply ticket of a request that the application or the peer has to complete. -/
theorem Stuck.holds_writer (hs : (machine P).Reachable s) (h : s.Stuck P) (howned : TicketsOwned s)
    (hright : RightlyParked s)
    (hparked : (s.tasks i).parked = some (t, s.shared.writer.notifyCalls)) :
    ∃ j, s.AwaitsOthers j ∧ s.shared.writer.currentServing ∈ (s.tasks j).writerTickets := by
  obtain ⟨hp, -, hfailure⟩ := hright i t _ hparked h.quiet
  obtain ⟨op, hpc⟩ := eq_of_parked hs hparked
  have hown : (s.writerHand i).slot .own = some t := by
    rw [Hand.slot, writerHand, hpc]
    rfl
  have hrange := (ticketInv hs).writer.range hown
  obtain hpool | ⟨j, hj⟩ := howned hp _ le_rfl (hrange.1.trans_lt hrange.2)
  · exact absurd hpool hfailure
  have hrest := h.rest j
  refine ⟨j, ?_⟩
  rw [AwaitsOthers]
  generalize hpcj : s.tasks j = pc at hj hrest
  cases hrest with
  | writer hparkedj =>
    -- who waits with the ticket being served would not have parked
    rw [← hpcj] at hparkedj
    obtain ⟨op', hpcj'⟩ := eq_of_parked hs hparkedj
    rw [← hpcj, hpcj'] at hj
    obtain hj | hj | hj := hj
    · obtain hserving := List.mem_singleton.mp hj
      exact absurd hserving (hright j _ _ hparkedj h.quiet).2.1
    · cases hj
    · exact absurd hj List.not_mem_nil
  | @byte pc hbyte hincoming =>
    refine ⟨Or.inl ⟨hbyte, hincoming⟩, ?_⟩
    cases pc with
    | readingPayload => simpa [Pc.adoptedTicket, Pc.writerGuards] using hj
    | readingHeader | readingResponse =>
      simp [Pc.writerTickets, Pc.adoptedTicket, Pc.writerGuards] at hj
    | _ => exact hbyte.elim
  | @application pc happlication =>
    refine ⟨Or.inr happlication, ?_⟩
    cases pc with
    | incoming | decoded => simpa [Pc.adoptedTicket, Pc.writerGuards] using hj
    | _ => exact happlication.elim
  | _ => simp [Pc.writerTickets, Pc.adoptedTicket, Pc.writerGuards] at hj

/-- **The reader.** Where nobody can go on and somebody waits for the reader, its guard is held for
the application or the peer, or somebody waits for the writer. -/
theorem Stuck.holds_reader (hs : (machine P).Reachable s) (h : s.Stuck P) (howned : ReadersOwned s)
    {op : ReadOp}
    (hpc : s.tasks i = .acquireReader op t (.await s.shared.reader.notifyCalls)) :
    s.shared.poisoned = false ∧
      ((∃ j, s.AwaitsOthers j ∧ s.shared.reader.currentServing ∈ (s.tasks j).readerGuards) ∨
        ∃ j u, (s.tasks j).parked = some (u, s.shared.writer.notifyCalls)) := by
  have hchecked : ∀ {j : ℕ} {op : ReadOp} {t : ℕ},
      s.tasks j = .acquireReader op t (.await s.shared.reader.notifyCalls) →
      s.shared.poisoned = false ∧ s.shared.reader.currentServing ≠ t := by
    intro j op t hj
    have hc := readerChecked hs j
    rw [hj] at hc
    exact hc.of_quiet h.quiet_readers
  obtain ⟨hp, -⟩ := hchecked hpc
  refine ⟨hp, ?_⟩
  have hown : (s.readerHand i).slot .own = some t := by
    rw [Hand.slot, readerHand, hpc]
    rfl
  obtain hpool | ⟨j, a, hj⟩ := (howned hp h.not_willPoison).serving_held (ticketInv hs).reader hown
  · exact absurd hpool (Finset.notMem_empty _)
  have hrest := h.rest j
  rw [readerHand] at hj
  generalize hpcj : s.tasks j = pc at hj hrest
  cases hrest with
  | writer hparkedj => exact Or.inr ⟨j, _, hpcj ▸ hparkedj⟩
  | @reader op' u =>
    -- who waits with the ticket being served would not have parked
    cases a with
    | own => exact absurd (Option.some.inj hj).symm (hchecked hpcj).2
    | adopted => cases hj
    | guard => cases hj
  | @byte pc hbyte hincoming =>
    refine Or.inl ⟨j, Or.inl ⟨hpcj.symm ▸ hbyte, hincoming⟩, ?_⟩
    rw [hpcj]
    cases pc with
    | readingHeader | readingResponse | readingPayload =>
      cases a with
      | own => cases hj
      | adopted => cases hj
      | guard => exact List.mem_singleton.mpr (Option.some.inj hj).symm
    | _ => exact hbyte.elim
  | @application pc happlication =>
    cases pc with
    | incoming =>
      refine Or.inl ⟨j, Or.inr (hpcj.symm ▸ trivial), ?_⟩
      rw [hpcj]
      cases a with
      | own => cases hj
      | adopted => cases hj
      | guard => exact List.mem_singleton.mpr (Option.some.inj hj).symm
    | decoded => cases a <;> cases hj
    | _ => exact happlication.elim
  | _ => cases a <;> cases hj

/-! ## Progress

The assumptions of the last section, from the three results about lost tickets and overlooked
failures. They are conditions on steps, so that they can be checked along a run. -/

/-- A step that loses no ticket and overlooks no automatic failure. -/
structure Undisturbed (s : Conversation V) (a : Action) : Prop where
  /-- No waiting writer is cancelled … -/
  writer : ¬ CancelsWaitingWriter s a
  /-- … no waiting reader is … -/
  reader : ¬ CancelsWaitingReader s a
  /-- … and no automatic failure is overlooked. -/
  failure : ¬ s.MissesAutoFailure a

/-- No writer ticket has been lost … -/
theorem ticketsOwned_of_undisturbed (hs : (machine P).Reach Undisturbed s) : TicketsOwned s :=
  hs.invariant (fun _ _ _ ht => absurd ht (Nat.not_lt_zero _))
    fun hr hC hok h => hC.step hr.reachable hok.writer h

/-- … no reader ticket has … -/
theorem readersOwned_of_undisturbed (hs : (machine P).Reach Undisturbed s) : ReadersOwned s :=
  hs.invariant (fun _ _ _ _ ht => absurd ht (Nat.not_lt_zero _))
    fun hr hC hok h => hC.step hr.reachable hok.writer hok.reader h

/-- … and no automatic failure has been overlooked. -/
theorem rightlyParked_of_undisturbed (hs : (machine P).Reach Undisturbed s) : RightlyParked s :=
  hs.invariant (fun _ _ _ hparked => by cases hparked)
    fun hr hright hok h => hright.step hr.reachable hok.failure h

/-- Nobody waits for the mutex where nobody can go on. -/
theorem Stuck.not_locked (hs : (machine P).Reachable s) (h : s.Stuck P) :
    s.shared.ticketPairLock = false := by
  by_contra hne
  obtain ⟨i, hi⟩ := exists_holdsPairLock hs (Bool.eq_true_of_not_eq_false hne)
  have hrest := h.rest i
  generalize s.tasks i = pc at hi hrest
  cases pc with
  | pairWriter | pairReader | pairUnlock =>
    cases hrest with
    | writer hparked => cases hparked
    | byte hbyte => exact hbyte
    | application happlication => exact happlication
  | _ => cases hi

/-- **Progress.** In a run that loses no ticket and overlooks no automatic failure, as long as any
task waits for its turn, some task can go on by itself; or else the session is not poisoned, and a
task that waits for bytes of the peer, or an object that the application has, is in the way with the
reader guard or with the writer ticket being served. -/
theorem waiting_progress (hs : (machine P).Reach Undisturbed s) (hwaits : (s.tasks i).Waits) :
    (∃ j e, e.isOwn = true ∧ (s.step P (.task j e)).isSome = true) ∨
      s.shared.poisoned = false ∧ ∃ j, s.AwaitsOthers j ∧
        (s.shared.reader.currentServing ∈ (s.tasks j).readerGuards ∨
          s.shared.writer.currentServing ∈ (s.tasks j).writerTickets) := by
  by_cases h : s.Stuck P
  · refine Or.inr ?_
    have hr := hs.reachable
    have hright := rightlyParked_of_undisturbed hs
    have hwriter : ∀ {j u : ℕ}, (s.tasks j).parked = some (u, s.shared.writer.notifyCalls) →
        s.shared.poisoned = false ∧ ∃ k, s.AwaitsOthers k ∧
          (s.shared.reader.currentServing ∈ (s.tasks k).readerGuards ∨
            s.shared.writer.currentServing ∈ (s.tasks k).writerTickets) := by
      intro j u hparked
      obtain ⟨k, hk, hserving⟩ :=
        h.holds_writer hr (ticketsOwned_of_undisturbed hs) hright hparked
      exact ⟨(hright j u _ hparked h.quiet).1, k, hk, Or.inr hserving⟩
    have hrest := h.rest i
    generalize hpc : s.tasks i = pc at hwaits hrest
    cases hrest with
    | locked hlock => exact absurd hlock (by simp [h.not_locked hr])
    | writer hparked => exact hwriter (hpc ▸ hparked)
    | reader =>
      obtain ⟨hp, ⟨j, hj, hguard⟩ | ⟨j, u, hparked⟩⟩ :=
        h.holds_reader hr (readersOwned_of_undisturbed hs) hpc
      · exact ⟨hp, j, hj, Or.inl hguard⟩
      · exact hwriter hparked
    | @byte pc hbyte =>
      cases pc with
      | readingHeader | readingResponse | readingPayload => exact hwaits.elim
      | _ => exact hbyte.elim
    | @application pc happlication =>
      cases pc with
      | incoming | decoded => exact hwaits.elim
      | _ => exact happlication.elim
    | _ => exact hwaits.elim
  · refine Or.inl ?_
    simp only [Stuck, Pc.Blocked, not_forall] at h
    obtain ⟨j, e, he, hne⟩ := h
    obtain ⟨r, hr⟩ := Option.ne_none_iff_exists'.mp hne
    exact ⟨j, e, he, by simp [step, hr]⟩

/-- The first task has accepted a request and does nothing with it; the second waits to accept the
next one. -/
def heldRun : List Action :=
  .arrive (ControlMessage.globalRequest ⟨"", []⟩ true).encode ::
    .task 0 .acceptGlobalRequest :: List.replicate 8 (.task 0 .run) ++
    .task 1 .acceptGlobalRequest :: List.replicate 3 (.task 1 .run)

/-- A step that drops no future, while there are no automatic failures. -/
def isCalm (x : Conversation V × Action) : Bool :=
  match x.2 with
  | .task _ .cancel => false
  | _ => decide (x.1.shared.autoFailures = ∅)

/-- Such a step disturbs nothing. -/
theorem Undisturbed.of_isCalm {a : Action} (h : isCalm (s, a) = true) : Undisturbed s a := by
  cases a with
  | arrive bytes => exact ⟨id, id, id⟩
  | task i e => cases e with
    | cancel => cases h
    | run =>
      refine ⟨id, id, ?_⟩
      rintro ⟨op, t, seen, -, -, hmem⟩
      rw [show s.shared.autoFailures = ∅ from of_decide_eq_true h] at hmem
      exact absurd hmem (Finset.notMem_empty _)
    | _ => exact ⟨id, id, id⟩

/-- The second task waits for the first, which the application holds. -/
theorem heldRun_progress :
    ∃ s, (machine .empty).exec initial heldRun = some s ∧ (s.tasks 1).Waits ∧
      ((∃ j e, e.isOwn = true ∧ (s.step .empty (.task j e)).isSome = true) ∨
        s.shared.poisoned = false ∧ ∃ j, s.AwaitsOthers j ∧
          (s.shared.reader.currentServing ∈ (s.tasks j).readerGuards ∨
            s.shared.writer.currentServing ∈ (s.tasks j).writerTickets)) := by
  obtain ⟨s, hexec, htest⟩ := (Option.any_eq_true
    (fun s : Conversation Unit => (s.tasks 1).inAcquireReader)
    ((machine .empty).exec initial heldRun)).mp (by decide)
  have hwaits : (s.tasks 1).Waits := by
    generalize s.tasks 1 = pc at htest
    cases pc with
    | acquireReader => trivial
    | _ => cases htest
  have hcalm :
      ((machine .empty).trace (initial : Conversation Unit) heldRun).all isCalm = true := by
    decide
  have hreach := (Machine.Path.of_exec hexec).reach fun x hx =>
    Undisturbed.of_isCalm (List.all_eq_true.mp hcalm x hx)
  exact ⟨s, hexec, hwaits, waiting_progress hreach hwaits⟩

end Conversation

end Dssh
