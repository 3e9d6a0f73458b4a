import Dssh.Conversation.Tickets
import Dssh.Lib.MessageStream

/-!
# The outgoing control stream

Writers write one message each, under the writer guard. Every failure on the way makes the rest
of the stream meaningless, so a writer that gives up poisons the session, and the others look at
the poison flag before they are granted the guard. For requests, notifications and replies the
flag is set before the guard is released. `drain_auto_failures` releases its guard first and
poisons later, or, when it is cancelled, not at all.

## What is to be excluded

Bytes behind an incomplete message. The peer's decoder would take them for the missing part of
it, and from there on everything it reads is garbage, with lengths and types made of payloads.
The poison flag is the protection, and it works as long as every task that could start a message
loads the flag *after* it has been set, or does not get the guard before.

For the main path the order is right: `PoisonOnDrop` is declared after the guard, so it is
dropped before it, and the flag is set while the turn is still held. The drain loop drops its
guard first, which advances the counter and wakes the next writer, and looks at the result of
its write only then. A writer that is quick enough passes the check in between. If the future is
dropped during the write, there is no caller to poison anything.

## The condition

`passesUnpoisoned` is the step that must not happen: a task loads the flag, finds it unset, and
an incomplete message is on the stream. `failedDrainRun_writes_on` shows that it can. In all
other runs the stream is whole messages and at most one incomplete one at its end, and nothing
is written behind that (`outgoing_stream`).

## The refinement

The accounting of bytes is the library's `MessageStream`. Here it is shown that every atomic
operation is a step of it, that a message is started from past the poison check only, and that
at most one task writes, which is exclusivity of the guard.

## Main definitions

* `Shared.stream`, `Pc.unwritten` — the message stream of a conversation
* `Shared.onWire`, `Shared.WholeMessages` — what is on the wire
* `Conversation.passesUnpoisoned` — the step that the result excludes
* `Conversation.StreamInv` — the accounting of the outgoing bytes

## Main results

* `Pc.Steps.stream` — every atomic operation is a step of the message stream
* `Conversation.streamInv` — the accounting of the outgoing bytes, in runs in which nobody
  passes the poison check behind an incomplete message
* `Conversation.outgoing_stream` — whole messages and at most one incomplete one at the end, in
  the same runs
* `Conversation.failedDrainRun_writes_on` — a run in which a writer goes on behind an incomplete
  message
-/

namespace Dssh

open TicketQueue

namespace Conversation

variable {V : Type}

/-! ## The stream of a conversation

The conversation keeps what has been handed to the encoder in `buffer` and what is on the wire in
`sent`. Which messages have been started, and with which tickets, is history. Together they are a
message stream in the sense of the library. -/

/-- The messages a conversation writes, without the tickets. -/
def Shared.stream (sh : Shared) : MessageStream UInt8 where
  started := sh.history.started.map fun x => x.2.encode
  buffer := sh.buffer
  sent := sh.sent
  broken := sh.history.leftIncomplete

/-- The messages that are on the wire completely, with the tickets they were written for. -/
def Shared.onWire (sh : Shared) : List (ℕ × ControlMessage) :=
  sh.history.started.take (MessageStream.complete sh.stream.started sh.sent.length)

/-- The bytes on the wire are whole messages and at most one incomplete one. -/
def Shared.WholeMessages (sh : Shared) : Prop :=
  ∃ part, sh.sent = (sh.onWire.map fun x => x.2.encode).flatten ++ part ∧
    (part = [] ∨ ∃ m : ControlMessage, part <+: m.encode ∧ part ≠ m.encode)

/-- Being granted the writer starts a message. -/
theorem Shared.stream_grantWriter (sh : Shared) (t : ℕ) (m : ControlMessage) :
    (sh.grantWriter t m).stream
      = { sh.stream with started := sh.stream.started ++ [m.encode] } := by
  simp [Shared.stream, Shared.grantWriter]

/-- A part of some messages is whole messages and a part of the next one. -/
theorem Shared.WholeMessages.of_isPrefix {sh : Shared} (h : sh.sent <+: sh.stream.started.flatten) :
    sh.WholeMessages := by
  obtain ⟨part, hsent, hpart⟩ := MessageStream.take_complete h
  refine ⟨part, ?_, hpart.imp_right ?_⟩
  · rw [Shared.onWire, List.map_take]
    exact hsent
  · rintro ⟨bytes, hget, hprefix, hne⟩
    obtain ⟨x, -, rfl⟩ := List.getElem?_map .. ▸ hget |> Option.map_eq_some_iff.mp
    exact ⟨x.2, hprefix, hne⟩

namespace Pc

/-- What a task still has to hand over of the message it is writing. -/
def unwritten : Pc V → Option (List UInt8)
  | acquireWriter _ _ (.drainWrite _ rest) => some rest
  | writing _ _ rest => some rest
  | _ => none

/-- About to load the poison flag for a writer guard. -/
def atPoisonCheck : Pc V → Bool
  | acquireWriter _ _ (.acquire (.checkPoison _)) => true
  | acquireWriter _ _ (.drainAcquire _ (.checkPoison _)) => true
  | _ => false

/-- Past that check, about to be granted the guard. -/
def PastPoisonCheck : Pc V → Prop
  | acquireWriter _ _ (.acquire (.checkServing _)) => True
  | acquireWriter _ _ (.drainAcquire _ (.checkServing _)) => True
  | _ => False

/-- Who is about to load the flag does not write. -/
theorem unwritten_eq_none_of_atPoisonCheck {pc : Pc V} (h : pc.atPoisonCheck = true) :
    pc.unwritten = none := by
  unfold atPoisonCheck at h
  split at h
  · rfl
  · rfl
  · cases h

/-- Who writes holds the guard. -/
theorem guard_of_unwritten {pc : Pc V} (h : pc.unwritten.isSome) :
    ∃ t, pc.writerHand.guard = some t := by
  unfold unwritten at h
  split at h
  · exact ⟨_, rfl⟩
  · exact ⟨_, rfl⟩
  · cases h

/-- Who is past the poison check has a ticket that is its turn. -/
theorem PastPoisonCheck.slot {pc : Pc V} {n : ℕ} (h : pc.PastPoisonCheck) (hk : pc.KeepsTurn n) :
    ∃ a, a ≠ Slot.guard ∧ pc.writerHand.slot a = some n := by
  unfold PastPoisonCheck at h
  split at h
  · exact ⟨.own, by decide, congrArg some hk.1⟩
  · exact ⟨.adopted, by decide, congrArg some hk.1⟩
  · exact h.elim

variable {P : GlobalProtocol V} {sh sh' : Shared} {pc pc' : Pc V} {e : Event}

/-- **Refinement.** Every atomic operation is a step of the message stream. -/
theorem Steps.stream (h : pc.Steps P sh e sh' pc') :
    MessageStream.Step sh.stream pc.unwritten sh'.stream pc'.unwritten := by
  cases h with
  | acquireWriter hwait => cases hwait with
    | drainGranted | acquireGranted => rw [Shared.stream_grantWriter]; exact .start _
    | drainWrite => exact .write
    | drainPush => exact .push
    | drainFlushed hbuffer => exact .finish hbuffer
    | drainIoError | drainWriteCancel => exact .abandon
    | _ => exact .idle
  | write => exact .write
  | push => exact .push
  | flushed hbuffer => exact .finish hbuffer
  | writeIoError | writeCancel => exact .abandon
  | @readerGranted op => cases op <;> exact .idle
  | @dropAct act => cases act <;> exact .idle
  | @resume next => cases next <;> exact .idle
  | _ => exact .idle

/-- A message is started from past the poison check only. -/
theorem Steps.pastPoisonCheck_of_start (h : pc.Steps P sh e sh' pc') (hnone : pc.unwritten = none)
    (hsome : pc'.unwritten.isSome) : pc.PastPoisonCheck := by
  cases h with
  | acquireWriter hwait => cases hwait with
    | drainGranted | acquireGranted => trivial
    | drainWrite | drainPush => cases hnone
    | _ => cases hsome
  | @readerGranted op => cases op <;> cases hsome
  | @resume next => cases next <;> cases hsome
  | write | push => cases hnone
  | _ => cases hsome

/-- And one gets there by finding the flag unset. -/
theorem Steps.of_pastPoisonCheck (h : pc.Steps P sh e sh' pc') (hpast : pc'.PastPoisonCheck) :
    pc.atPoisonCheck = true ∧ e = .run ∧ sh.poisoned = false := by
  cases h with
  | acquireWriter hwait => cases hwait with
    | @drainWait c acq acq' hacq | @acquireWait acq acq' hacq =>
      cases acq' with
      | checkServing seen' =>
        obtain ⟨seen, rfl, hp⟩ := Acquire.of_checkServing hacq
        exact ⟨rfl, rfl, hp⟩
      | _ => exact hpast.elim
    | _ => exact hpast.elim
  | @readerGranted op => cases op <;> exact hpast.elim
  | @resume next => cases next <;> exact hpast.elim
  | _ => exact hpast.elim

end Pc

end Conversation

namespace Conversation

variable {V : Type} {P : GlobalProtocol V} {s s' : Conversation V}

/-! ## The condition

A writer that fails poisons the session and then releases its guard, so that nobody gets past the
check. The drain does it the other way round. The condition is not about the drain, but about the
task that profits from it: it passes the check behind an incomplete message. -/

/-- A task passes the poison check for the writer behind an incomplete message: the session is not
poisoned, or not yet. -/
def passesUnpoisoned (s : Conversation V) : Action → Bool
  | .task i .run =>
    (s.tasks i).atPoisonCheck && s.shared.history.leftIncomplete && !s.shared.poisoned
  | _ => false

/-- What every task still has to write. -/
def unwritten (s : Conversation V) (i : ℕ) : Option (List UInt8) := (s.tasks i).unwritten

/-- The accounting of the outgoing bytes. -/
structure StreamInv (s : Conversation V) : Prop where
  /-- The bytes are accounted for. -/
  stream : MessageStream.Inv s.shared.stream s.unwritten
  /-- Behind an incomplete message nobody is about to write. -/
  stopped : s.shared.history.leftIncomplete = true → ∀ i, ¬ (s.tasks i).PastPoisonCheck

/-- While one task is past the poison check, nobody writes. -/
theorem unwritten_eq_none_of_past (hs : (machine P).Reachable s) {i : ℕ}
    (h : (s.tasks i).PastPoisonCheck) (j : ℕ) : s.unwritten j = none := by
  obtain ⟨a, ha, hslot⟩ := h.slot (keepsTurn hs i)
  by_contra hne
  obtain ⟨t, ht⟩ := Pc.guard_of_unwritten (Option.isSome_iff_ne_none.mpr hne)
  rw [show (s.tasks j).writerHand.guard = none from
    (ticketInv hs).writer.guard_none_of_serving ha hslot j] at ht
  cases ht

/-- Of two tasks at most one writes. -/
theorem unwritten_eq_none_of_ne (hs : (machine P).Reachable s) {i j : ℕ}
    (h : (s.unwritten i).isSome) (hj : j ≠ i) : s.unwritten j = none := by
  by_contra hne
  obtain ⟨t, ht⟩ := Pc.guard_of_unwritten h
  obtain ⟨u, hu⟩ := Pc.guard_of_unwritten (Option.isSome_iff_ne_none.mpr hne)
  exact hj ((ticketInv hs).writer.guard_unique hu ht)

/-- A step that does not pass the check behind an incomplete message. -/
theorem StreamInv.step {a : Action} (hs : (machine P).Reachable s) (hI : StreamInv s)
    (hok : ¬ s.passesUnpoisoned a) (h : s.step P a = some s') : StreamInv s' := by
  cases a with
  | arrive bytes =>
    obtain rfl := Option.some.inj h
    exact ⟨hI.stream, hI.stopped⟩
  | task i e =>
    obtain ⟨pc', hst, htasks⟩ := step_task h
    have hunwritten : s'.unwritten = Function.update s.unwritten i pc'.unwritten := by
      funext j
      rw [unwritten, htasks]
      exact Function.apply_update (fun _ => Pc.unwritten) s.tasks i pc' j
    refine ⟨?_, fun hbroken => (forall_tasks (Q := fun pc => ¬ pc.PastPoisonCheck) htasks).mpr
      ⟨fun hpast => ?_, fun j hj hpast => ?_⟩⟩
    · rw [hunwritten]
      refine hI.stream.step hst.stream (fun hsome j hj => ?_) fun hnone hsome => ?_
      · cases hi : s.unwritten i with
        | some r => exact unwritten_eq_none_of_ne hs (by simp [hi]) hj
        | none =>
          rw [hi] at hsome
          exact unwritten_eq_none_of_past hs
            (hst.pastPoisonCheck_of_start hi (hsome.resolve_left (by simp))) j
      · exact Bool.eq_false_of_not_eq_true fun hbroken =>
          hI.stopped hbroken i (hst.pastPoisonCheck_of_start hnone hsome)
    · -- the task itself cannot have passed the check now
      obtain ⟨hcheck, rfl, hp⟩ := hst.of_pastPoisonCheck hpast
      have hsame := (Pc.unwritten_eq_none_of_atPoisonCheck hcheck ▸ hst.stream).eq_of_none
      have hleft : s.shared.history.leftIncomplete = true := hsame.2.2.symm.trans hbroken
      exact hok (by simp [passesUnpoisoned, hcheck, hleft, hp])
    · -- another task is past the check: then the message was not given up just now
      have hnone : s.unwritten i = none := unwritten_eq_none_of_past hs hpast i
      have hstream := hst.stream
      rw [show (s.tasks i).unwritten = none from hnone] at hstream
      exact hI.stopped (hstream.eq_of_none.2.2.symm.trans hbroken) j hpast

/-- The accounting holds along such runs. -/
theorem streamInv (hs : (machine P).Reach (fun s a => ¬ s.passesUnpoisoned a) s) : StreamInv s :=
  hs.invariant ⟨.init, fun h => by cases h⟩ fun hr hI hok h => hI.step hr.reachable hok h

/-- Behind an incomplete message no step writes. -/
theorem StreamInv.sent_eq {a : Action} (hI : StreamInv s)
    (hbroken : s.shared.history.leftIncomplete = true) (h : s.step P a = some s') :
    s'.shared.sent = s.shared.sent ∧ s'.shared.buffer = s.shared.buffer ∧
      s'.shared.history.leftIncomplete = true := by
  cases a with
  | arrive bytes =>
    obtain rfl := Option.some.inj h
    exact ⟨rfl, rfl, hbroken⟩
  | task i e =>
    obtain ⟨pc', hst, -⟩ := step_task h
    have hstream := hst.stream
    rw [show (s.tasks i).unwritten = none from hI.stream.unwritten_eq_none hbroken i] at hstream
    obtain ⟨hsent, hbuffer, hsame⟩ := hstream.eq_of_none
    exact ⟨hsent, hbuffer, hsame.trans hbroken⟩

/-- **The outgoing stream.** In a run in which nobody passes the poison check for the writer behind
an incomplete message, the stream is whole messages and at most one incomplete one, and from the
moment a message has been left incomplete nothing is written any more. -/
theorem outgoing_stream {l : List (Conversation V × Action)} (h : (machine P).Path l s)
    (hok : ∀ x ∈ l, ¬ x.1.passesUnpoisoned x.2) :
    s.shared.WholeMessages ∧ ∀ x ∈ l, x.1.shared.history.leftIncomplete = true →
      s.shared.sent = x.1.shared.sent ∧ s.shared.buffer = x.1.shared.buffer := by
  refine ⟨.of_isPrefix (List.IsPrefix.trans (List.prefix_append _ _)
    (streamInv (h.reach hok)).stream.sent_prefix), ?_⟩
  suffices hlast : ∀ x ∈ l, x.1.shared.history.leftIncomplete = true →
      s.shared.sent = x.1.shared.sent ∧ s.shared.buffer = x.1.shared.buffer ∧
        s.shared.history.leftIncomplete = true from
    fun x hx hbroken => ⟨(hlast x hx hbroken).1, (hlast x hx hbroken).2.1⟩
  induction h with
  | nil => exact fun x hx => absurd hx List.not_mem_nil
  | @snoc l s a s' hp hst ih =>
    have hok' : ∀ x ∈ l, ¬ x.1.passesUnpoisoned x.2 := fun x hx =>
      hok x (List.mem_append_left _ hx)
    have hI := streamInv (hp.reach hok')
    intro x hx hbroken
    rcases List.mem_append.mp hx with hx | hx
    · obtain ⟨hsent, hbuffer, hb⟩ := ih hok' x hx hbroken
      obtain ⟨hsent', hbuffer', hb'⟩ := hI.sent_eq hb hst
      exact ⟨hsent'.trans hsent, hbuffer'.trans hbuffer, hb'⟩
    · obtain rfl := List.mem_singleton.mp hx
      exact hI.sent_eq hbroken hst

/-! ## Runs that break off

Two runs in which a message is left incomplete while somebody waits. In the first one the session
is poisoned in time, and in the second one it is not. -/

/-- The first task writes its message. The second one fails after two bytes of its own while the
third waits: it poisons the session and releases its guard, and the third task is refused. -/
def brokenOffRun : List Action :=
  .task 0 (.sendGlobalNotification ⟨"", []⟩) :: List.replicate 6 (.task 0 .run) ++
    [.task 0 (.write 4), .task 0 (.push 4)] ++ List.replicate 4 (.task 0 .run) ++
    .task 1 (.sendGlobalNotification ⟨"", []⟩) :: List.replicate 6 (.task 1 .run) ++
    .task 2 (.sendGlobalNotification ⟨"", []⟩) :: List.replicate 6 (.task 2 .run) ++
    [.task 1 (.write 2), .task 1 (.push 2), .task 1 .ioError] ++
    List.replicate 5 (.task 1 .run) ++ List.replicate 6 (.task 2 .run)

/-- One whole message and half of another are on the wire, and nothing is written behind them. -/
theorem brokenOffRun_outgoing_stream :
    ∃ s, (machine .empty).exec initial brokenOffRun = some s ∧
      s.shared.sent = [0x40, 0x50, 0, 0, 0x40, 0x50] ∧ s.shared.poisoned = true ∧
      ((machine .empty).trace initial brokenOffRun).countP
        (fun x => x.1.shared.history.leftIncomplete) = 11 ∧
      s.shared.WholeMessages ∧ ∀ x ∈ (machine .empty).trace initial brokenOffRun,
        x.1.shared.history.leftIncomplete = true →
          s.shared.sent = x.1.shared.sent ∧ s.shared.buffer = x.1.shared.buffer := by
  obtain ⟨s, hs, htest⟩ := (Option.any_eq_true
    (fun s : Conversation Unit =>
      decide (s.shared.sent = [0x40, 0x50, 0, 0, 0x40, 0x50]) && s.shared.poisoned)
    ((machine .empty).exec initial brokenOffRun)).mp (by decide +kernel)
  simp only [Bool.and_eq_true, decide_eq_true_eq] at htest
  have hpasses : ∀ x ∈ (machine .empty).trace initial brokenOffRun,
      ¬ x.1.passesUnpoisoned x.2 := by decide +kernel
  exact ⟨s, hs, htest.1, htest.2, by decide +kernel, outgoing_stream (.of_exec hs) hpasses⟩

/-- The first task accepts a request and drops it; the third, which waits with ticket `2` behind
ticket `1` of the second, drains the automatic failure and fails after one byte of it. It has
dropped its guard and notified, and not yet poisoned the session. -/
def failedDrainRun : List Action :=
  .arrive (ControlMessage.globalRequest ⟨"", []⟩ true).encode ::
    .task 0 .acceptGlobalRequest :: List.replicate 8 (.task 0 .run) ++
    .task 0 .decodePayload :: List.replicate 4 (.task 0 .run) ++
    [.task 1 (.sendGlobalNotification ⟨"", []⟩), .task 2 (.sendGlobalNotification ⟨"", []⟩)] ++
    .task 0 .drop :: List.replicate 3 (.task 0 .run) ++
    List.replicate 5 (.task 2 .run) ++
    [.task 2 (.write 1), .task 2 (.push 1), .task 2 .ioError, .task 2 .run, .task 2 .run]

/-- The second task takes its turn. -/
def writeOnRun : List Action :=
  List.replicate 6 (.task 1 .run) ++ [.task 1 (.write 1), .task 1 (.push 1)]

/-- A message has been left incomplete and more bytes are written behind it. -/
theorem failedDrainRun_writes_on :
    ∃ s s', (machine .empty).exec initial failedDrainRun = some s ∧
      (machine .empty).exec s writeOnRun = some s' ∧
      s.shared.history.leftIncomplete = true ∧ s.shared.sent = [0x40] ∧
      s'.shared.sent = [0x40, 0x40] := by
  obtain ⟨s, hs, htest⟩ := (Option.any_eq_true
    (fun s : Conversation Unit => s.shared.history.leftIncomplete && decide (s.shared.sent = [0x40])
      && ((machine .empty).exec s writeOnRun).any
        fun s' : Conversation Unit => decide (s'.shared.sent = [0x40, 0x40]))
    ((machine .empty).exec initial failedDrainRun)).mp (by decide)
  simp only [Bool.and_eq_true, decide_eq_true_eq] at htest
  obtain ⟨⟨hleft, hsent⟩, hnext⟩ := htest
  obtain ⟨s', hs', hsent'⟩ := (Option.any_eq_true _ _).mp hnext
  exact ⟨s, s', hs, hs', hleft, hsent, of_decide_eq_true hsent'⟩

end Conversation

end Dssh
