import Dssh.Conversation.Step

/-!
# What one atomic operation can do

`Pc.step` computes; the proofs need the converse, what can have happened when it has computed a
state. `Pc.Steps` lists the possibilities once, one constructor for each way through the code,
and `Pc.Steps.of_step` says that there are no others. Every invariant of a conversation is
proved by cases on it, and nothing else unfolds `Pc.step`.

Operations inside `acquire_writer` have a relation of their own, `WriterWait.Steps`.

## Why it pays

There are some forty ways through the code, and a dozen invariants. Unfolding the step function
and splitting its nested matches for each of them would do the same case analysis a dozen times,
with hypotheses named by the machine. The relation does it once. A constructor says in its
arguments what the branch has checked (`hmem : c ∈ sh.autoFailures`), so a proof by cases starts
with the facts in scope and under names that mean something.

It is also the module to change when the source changes. A new way through the code is a new
constructor, and each invariant then has one case that is missing.

## Frame lemmas

At the end stand a few facts about single steps that many modules need: a step of the
conversation is that of one task, the other tasks stay where they are, and a run leaves those
alone that it does not name.
-/

namespace Dssh

namespace Conversation

variable {V : Type}

/-! ## `OrderedAccess::acquire`

The poison flag is loaded in front of the counter, in every round. So whoever is granted a guard
has come through the check, and whoever is refused has come to it. -/

namespace Acquire

/-- At `notified.await`. -/
def isAwait : Acquire → Bool
  | await _ => true
  | _ => false

variable {oa : OrderedAccess} {poisoned : Bool} {t : ℕ} {acq acq' : Acquire}

/-- The guard is granted behind the comparison with the counter. -/
theorem step_granted (h : acq.step oa poisoned t = some .granted) :
    ∃ seen, acq = .checkServing seen ∧ oa.currentServing = t := by
  cases acq with
  | checkServing seen =>
    refine ⟨seen, rfl, ?_⟩
    by_contra hne
    simp [step, hne] at h
  | register => simp [step] at h
  | checkPoison seen => cases poisoned <;> simp [step] at h
  | await seen => by_cases hs : oa.notifyCalls = seen <;> simp [step, hs] at h

/-- And refused at the check of the flag. -/
theorem step_refused (h : acq.step oa poisoned t = some .refused) :
    (∃ seen, acq = .checkPoison seen) ∧ poisoned = true := by
  cases acq with
  | checkPoison seen =>
    refine ⟨⟨seen, rfl⟩, ?_⟩
    by_contra hne
    simp [step, hne] at h
  | register => simp [step] at h
  | checkServing seen => by_cases hs : oa.currentServing = t <;> simp [step, hs] at h
  | await seen => by_cases hs : oa.notifyCalls = seen <;> simp [step, hs] at h

/-- A task that finds its turn does not wait. -/
theorem isAwait_of_step (h : acq.step oa poisoned t = some (.wait acq'))
    (hserving : oa.currentServing = t) : acq'.isAwait = false := by
  cases acq with
  | register => simp only [step, Option.some.injEq, Next.wait.injEq] at h; subst h; rfl
  | checkPoison seen =>
    cases poisoned <;> simp [step] at h
    subst h
    rfl
  | checkServing seen => simp [step, hserving] at h
  | await seen =>
    by_cases hs : oa.notifyCalls = seen <;> simp [step, hs] at h
    subst h
    rfl

/-- The only way past the poison check. -/
theorem of_checkServing {seen : ℕ}
    (h : acq.step oa poisoned t = some (.wait (.checkServing seen))) :
    ∃ seen', acq = .checkPoison seen' ∧ poisoned = false := by
  cases acq with
  | checkPoison seen' => cases poisoned <;> simp [step] at h ⊢
  | register => simp [step] at h
  | checkServing seen' => by_cases hs : oa.currentServing = t <;> simp [step, hs] at h
  | await seen' => by_cases hs : oa.notifyCalls = seen' <;> simp [step, hs] at h

end Acquire

/-! ## `acquire_writer`

Two loops around `acquire`: automatic failures whose turn it is are written first, and the task's
own turn comes behind. The places are those of `WriterWait`, and each constructor below is one of
their operations. -/

/-- What one atomic operation inside `acquire_writer(t)` on behalf of `op` can do. -/
inductive WriterWait.Steps (sh : Shared) (op : WriteOp) (t : ℕ) :
    WriterWait → Event → Shared → Pc V → Prop
  | drainLoad : Steps sh op t .drainLoad .run sh
      (.acquireWriter op t (.drainRemove sh.writer.currentServing))
  | drainHit {c : ℕ} (hmem : c ∈ sh.autoFailures) :
      Steps sh op t (.drainRemove c) .run { sh with autoFailures := sh.autoFailures.erase c }
        (.acquireWriter op t (.drainAcquire c .register))
  | drainMiss {c : ℕ} (hmem : c ∉ sh.autoFailures) :
      Steps sh op t (.drainRemove c) .run sh (.acquireWriter op t .checkServing)
  | drainWait {c : ℕ} {acq acq' : Acquire}
      (hacq : acq.step sh.writer sh.poisoned c = some (.wait acq')) :
      Steps sh op t (.drainAcquire c acq) .run sh (.acquireWriter op t (.drainAcquire c acq'))
  | drainRefused {c seen : ℕ} (hpoison : sh.poisoned = true) :
      Steps sh op t (.drainAcquire c (.checkPoison seen)) .run sh
        (.finished (op.failed t .sessionPoisoned))
  | drainGranted {c seen : ℕ} (hserving : sh.writer.currentServing = c) :
      Steps sh op t (.drainAcquire c (.checkServing seen)) .run
        (sh.grantWriter c .requestFailure)
        (.acquireWriter op t (.drainWrite c ControlMessage.requestFailure.encode))
  | drainCancel {c seen : ℕ} :
      Steps sh op t (.drainAcquire c (.await seen)) .cancel sh (.finished .dropped)
  | drainWrite {c n : ℕ} {rest : List UInt8} (hpos : 0 < n) (hle : n ≤ rest.length) :
      Steps sh op t (.drainWrite c rest) (.write n) (sh.write (rest.take n))
        (.acquireWriter op t (.drainWrite c (rest.drop n)))
  | drainPush {c n : ℕ} {rest : List UInt8} (hpos : 0 < n) (hle : n ≤ sh.buffer.length) :
      Steps sh op t (.drainWrite c rest) (.push n) (sh.push n)
        (.acquireWriter op t (.drainWrite c rest))
  | drainFlushed {c : ℕ} (hbuffer : sh.buffer = []) :
      Steps sh op t (.drainWrite c []) .run sh (.unwinding (dropWriterGuard c) (.drain op t))
  | drainIoError {c : ℕ} {rest : List UInt8} :
      Steps sh op t (.drainWrite c rest) .ioError (sh.abandon rest)
        (.unwinding (dropWriterGuard c ++ poison ++ [.forgetTicket t])
          (.finish (op.failed t .sessionPoisoned)))
  | drainWriteCancel {c : ℕ} {rest : List UInt8} :
      Steps sh op t (.drainWrite c rest) .cancel (sh.abandon rest)
        (.unwinding (dropWriterGuard c) (.finish .dropped))
  | serving (hserving : sh.writer.currentServing = t) :
      Steps sh op t .checkServing .run sh (.acquireWriter op t (.acquire .register))
  | notServing (hserving : sh.writer.currentServing ≠ t) :
      Steps sh op t .checkServing .run sh (.acquireWriter op t .register)
  | register : Steps sh op t .register .run sh
      (.acquireWriter op t (.checkPoison sh.writer.notifyCalls))
  | refused {seen : ℕ} (hpoison : sh.poisoned = true) :
      Steps sh op t (.checkPoison seen) .run sh (.finished (op.failed t .sessionPoisoned))
  | notRefused {seen : ℕ} (hpoison : sh.poisoned = false) :
      Steps sh op t (.checkPoison seen) .run sh (.acquireWriter op t (.recheckServing seen))
  | servingNow {seen : ℕ} (hserving : sh.writer.currentServing = t) :
      Steps sh op t (.recheckServing seen) .run sh (.acquireWriter op t (.acquire .register))
  | park {seen : ℕ} (hserving : sh.writer.currentServing ≠ t) :
      Steps sh op t (.recheckServing seen) .run sh (.acquireWriter op t (.await seen))
  | wake {seen : ℕ} (hseen : sh.writer.notifyCalls ≠ seen) :
      Steps sh op t (.await seen) .run sh (.acquireWriter op t .drainLoad)
  | cancel {seen : ℕ} : Steps sh op t (.await seen) .cancel sh (.finished .dropped)
  | acquireWait {acq acq' : Acquire}
      (hacq : acq.step sh.writer sh.poisoned t = some (.wait acq')) :
      Steps sh op t (.acquire acq) .run sh (.acquireWriter op t (.acquire acq'))
  | acquireRefused {seen : ℕ} (hpoison : sh.poisoned = true) :
      Steps sh op t (.acquire (.checkPoison seen)) .run sh
        (.finished (op.failed t .sessionPoisoned))
  | acquireGranted {seen : ℕ} (hserving : sh.writer.currentServing = t) :
      Steps sh op t (.acquire (.checkServing seen)) .run (sh.grantWriter t op.message)
        (.writing op t op.message.encode)
  | acquireCancel {seen : ℕ} :
      Steps sh op t (.acquire (.await seen)) .cancel sh (.finished .dropped)

/-- Whatever `stepAcquireWriter` computes is one of these. -/
theorem WriterWait.Steps.of_step {sh sh' : Shared} {op : WriteOp} {t : ℕ} {wait : WriterWait}
    {e : Event} {pc' : Pc V} (h : stepAcquireWriter sh op t wait e = some (sh', pc')) :
    WriterWait.Steps sh op t wait e sh' pc' := by
  unfold stepAcquireWriter at h
  split at h
  all_goals try split at h
  all_goals simp only [Option.some.injEq, Prod.mk.injEq, reduceCtorEq] at h
  all_goals obtain ⟨rfl, rfl⟩ := h
  -- what is left of each branch is the constructor of its name, its guards being in the context
  all_goals first
    | (constructor <;> simp_all)
    | (rename_i hdone; obtain ⟨rfl, hbuffer⟩ := hdone; exact .drainFlushed hbuffer)
    | (rename_i hacq; obtain ⟨seen, rfl, hserving⟩ := Acquire.step_granted hacq
       constructor; exact hserving)
    | (rename_i hacq; obtain ⟨⟨seen, rfl⟩, hpoison⟩ := Acquire.step_refused hacq
       constructor; exact hpoison)

/-! ## All operations

One constructor for each thing that an operation can do, with its guards as hypotheses and the
new state spelled out. Everything that is shown of a step of the conversation is shown by cases
on this type. -/

/-- What one atomic operation of a task can do. -/
inductive Pc.Steps (P : GlobalProtocol V) (sh : Shared) : Pc V → Event → Shared → Pc V → Prop
  | sendGlobalRequest {rq : GlobalRequest} :
      Steps P sh .idle (.sendGlobalRequest rq) sh (.pairLock rq)
  | sendGlobalNotification {notice : GlobalRequest} :
      Steps P sh .idle (.sendGlobalNotification notice) sh.takeWriterTicket
        (.acquireWriter (.notification notice) sh.writer.nextTicket .drainLoad)
  | acceptGlobalRequest :
      Steps P sh .idle .acceptGlobalRequest (sh.takeReaderTicket .accept)
        (.acquireReader .accept sh.reader.nextTicket .register)
  | pairLock {rq : GlobalRequest} (hlock : sh.ticketPairLock = false) :
      Steps P sh (.pairLock rq) .run { sh with ticketPairLock := true } (.pairWriter rq)
  | pairWriter {rq : GlobalRequest} :
      Steps P sh (.pairWriter rq) .run sh.takeWriterTicket (.pairReader rq sh.writer.nextTicket)
  | pairReader {rq : GlobalRequest} {w : ℕ} :
      Steps P sh (.pairReader rq w) .run (sh.takeReaderTicket (.response rq w))
        (.pairUnlock rq w sh.reader.nextTicket)
  | pairUnlock {rq : GlobalRequest} {w r : ℕ} :
      Steps P sh (.pairUnlock rq w r) .run { sh with ticketPairLock := false }
        (.acquireWriter (.request rq r) w .drainLoad)
  | acquireWriter {op : WriteOp} {t : ℕ} {wait : WriterWait} {e : Event} {sh' : Shared} {pc' : Pc V}
      (hwait : WriterWait.Steps sh op t wait e sh' pc') :
      Steps P sh (.acquireWriter op t wait) e sh' pc'
  | write {op : WriteOp} {t n : ℕ} {rest : List UInt8} (hpos : 0 < n) (hle : n ≤ rest.length) :
      Steps P sh (.writing op t rest) (.write n) (sh.write (rest.take n))
        (.writing op t (rest.drop n))
  | push {op : WriteOp} {t n : ℕ} {rest : List UInt8} (hpos : 0 < n)
      (hle : n ≤ sh.buffer.length) :
      Steps P sh (.writing op t rest) (.push n) (sh.push n) (.writing op t rest)
  | flushed {op : WriteOp} {t : ℕ} (hbuffer : sh.buffer = []) :
      Steps P sh (.writing op t []) .run sh (.unwinding (dropWriterGuard t) (op.written t))
  | writeIoError {op : WriteOp} {t : ℕ} {rest : List UInt8} :
      Steps P sh (.writing op t rest) .ioError (sh.abandon rest)
        (.unwinding (poison ++ dropWriterGuard t) (.finish (op.failed t (op.encodeError rest))))
  | writeCancel {op : WriteOp} {t : ℕ} {rest : List UInt8} :
      Steps P sh (.writing op t rest) .cancel (sh.abandon rest)
        (.unwinding (poison ++ dropWriterGuard t) (.finish .dropped))
  | readerWait {op : ReadOp} {t : ℕ} {acq acq' : Acquire}
      (hacq : acq.step sh.reader sh.poisoned t = some (.wait acq')) :
      Steps P sh (.acquireReader op t acq) .run sh (.acquireReader op t acq')
  | readerRefused {op : ReadOp} {t seen : ℕ} (hpoison : sh.poisoned = true) :
      Steps P sh (.acquireReader op t (.checkPoison seen)) .run sh (.finished (op.refused t))
  | readerGranted {op : ReadOp} {t seen : ℕ} (hserving : sh.reader.currentServing = t) :
      Steps P sh (.acquireReader op t (.checkServing seen)) .run (sh.grantReader t)
        (op.reading P t)
  | readerCancel {op : ReadOp} {t seen : ℕ} :
      Steps P sh (.acquireReader op t (.await seen)) .cancel sh (.finished .dropped)
  | headerByte {t : ℕ} {got : List UInt8} {io : AcceptError}
      {k : UInt8 → Decoder AcceptError (SshString × Bool)} {b : UInt8} {rest : List UInt8}
      (hincoming : sh.incoming = b :: rest) :
      Steps P sh (.readingHeader t got (.read io k)) .run (sh.consume b rest)
        (.readingHeader t (got ++ [b]) (k b))
  | headerIoError {t : ℕ} {got : List UInt8} {io : AcceptError}
      {k : UInt8 → Decoder AcceptError (SshString × Bool)} :
      Steps P sh (.readingHeader t got (.read io k)) .ioError sh
        (.unwinding (poison ++ dropReaderGuard t) (.finish (.accept io)))
  | headerCancel {t : ℕ} {got : List UInt8} {io : AcceptError}
      {k : UInt8 → Decoder AcceptError (SshString × Bool)} :
      Steps P sh (.readingHeader t got (.read io k)) .cancel sh
        (.unwinding (poison ++ dropReaderGuard t) (.finish .dropped))
  | headerFailed {t : ℕ} {got : List UInt8} {err : AcceptError} :
      Steps P sh (.readingHeader t got (.fail err)) .run sh
        (.unwinding (poison ++ dropReaderGuard t) (.finish (.accept err)))
  | requestAccepted {t : ℕ} {got : List UInt8} {ty : SshString} :
      Steps P sh (.readingHeader t got (.done (ty, true))) .run (sh.takeReplyTicket ty)
        (.incoming ty t (some sh.writer.nextTicket) got)
  | noticeAccepted {t : ℕ} {got : List UInt8} {ty : SshString} :
      Steps P sh (.readingHeader t got (.done (ty, false))) .run sh (.incoming ty t none got)
  | responseByte {rq : GlobalRequest} {w t : ℕ} {got : List UInt8} {io : SendRequestError}
      {k : UInt8 → Decoder SendRequestError V} {b : UInt8} {rest : List UInt8}
      (hincoming : sh.incoming = b :: rest) :
      Steps P sh (.readingResponse rq w t got (.read io k)) .run (sh.consume b rest)
        (.readingResponse rq w t (got ++ [b]) (k b))
  | responseIoError {rq : GlobalRequest} {w t : ℕ} {got : List UInt8} {io : SendRequestError}
      {k : UInt8 → Decoder SendRequestError V} :
      Steps P sh (.readingResponse rq w t got (.read io k)) .ioError sh
        (.unwinding (dropReaderGuard t) (.finish (.request rq w t (.error io))))
  | responseCancel {rq : GlobalRequest} {w t : ℕ} {got : List UInt8} {io : SendRequestError}
      {k : UInt8 → Decoder SendRequestError V} :
      Steps P sh (.readingResponse rq w t got (.read io k)) .cancel sh
        (.unwinding (dropReaderGuard t) (.finish .dropped))
  | responseFailed {rq : GlobalRequest} {w t : ℕ} {got : List UInt8} {err : SendRequestError} :
      Steps P sh (.readingResponse rq w t got (.fail err)) .run sh
        (.unwinding (dropReaderGuard t) (.finish (.request rq w t (.error err))))
  | responseDone {rq : GlobalRequest} {w t : ℕ} {got : List UInt8} {v : V} :
      Steps P sh (.readingResponse rq w t got (.done v)) .run sh
        (.unwinding (dropReaderGuard t) (.finish (.request rq w t (.ok v))))
  | decodePayload {ty : SshString} {t : ℕ} {w : Option ℕ} {got : List UInt8} :
      Steps P sh (.incoming ty t w got) .decodePayload sh
        (.readingPayload ty t w got (P.payload ty))
  | dropIncoming {ty : SshString} {t : ℕ} {w : Option ℕ} {got : List UInt8} :
      Steps P sh (.incoming ty t w got) .drop sh
        (.unwinding (poison ++ dropReaderGuard t ++ forgetTicket w) (.finish .dropped))
  | payloadByte {ty : SshString} {t : ℕ} {w : Option ℕ} {got : List UInt8} {io : CodecError}
      {k : UInt8 → Decoder CodecError V} {b : UInt8} {rest : List UInt8}
      (hincoming : sh.incoming = b :: rest) :
      Steps P sh (.readingPayload ty t w got (.read io k)) .run (sh.consume b rest)
        (.readingPayload ty t w (got ++ [b]) (k b))
  | payloadIoError {ty : SshString} {t : ℕ} {w : Option ℕ} {got : List UInt8} {io : CodecError}
      {k : UInt8 → Decoder CodecError V} :
      Steps P sh (.readingPayload ty t w got (.read io k)) .ioError sh
        (.unwinding (poison ++ dropReaderGuard t ++ forgetTicket w) (.finish (.payload io)))
  | payloadCancel {ty : SshString} {t : ℕ} {w : Option ℕ} {got : List UInt8} {io : CodecError}
      {k : UInt8 → Decoder CodecError V} :
      Steps P sh (.readingPayload ty t w got (.read io k)) .cancel sh
        (.unwinding (poison ++ dropReaderGuard t ++ forgetTicket w) (.finish .dropped))
  | payloadFailed {ty : SshString} {t : ℕ} {w : Option ℕ} {got : List UInt8} {err : CodecError} :
      Steps P sh (.readingPayload ty t w got (.fail err)) .run sh
        (.unwinding (poison ++ dropReaderGuard t ++ forgetTicket w) (.finish (.payload err)))
  | requestDecoded {ty : SshString} {t w : ℕ} {got : List UInt8} {v : V} :
      Steps P sh (.readingPayload ty t (some w) got (.done v)) .run sh
        (.unwinding (dropReaderGuard t) (.decoded ty w v))
  | noticeDecoded {ty : SshString} {t : ℕ} {got : List UInt8} {v : V} :
      Steps P sh (.readingPayload ty t none got (.done v)) .run sh
        (.unwinding (dropReaderGuard t) (.finish (.notice v)))
  | respond {ty : SshString} {w : ℕ} {v : V} {a : Answer} :
      Steps P sh (.decoded ty w v) (.respond a) (sh.choose w a)
        (.acquireWriter (.respond a) w .drainLoad)
  | dropDecoded {ty : SshString} {w : ℕ} {v : V} :
      Steps P sh (.decoded ty w v) .drop (sh.choose w .failure)
        (.unwinding [.insertAutoFailure w, .notifyWriter] (.finish .dropped))
  | dropAct {act : DropAct} {acts : List DropAct} {next : After V} :
      Steps P sh (.unwinding (act :: acts) next) .run (act.exec sh) (.unwinding acts next)
  | resume {next : After V} : Steps P sh (.unwinding [] next) .run sh next.resume

/-- **Inversion.** Whatever `Pc.step` computes is one of the possibilities above. -/
theorem Pc.Steps.of_step {P : GlobalProtocol V} {sh sh' : Shared} {pc pc' : Pc V} {e : Event}
    (h : pc.step P sh e = some (sh', pc')) : Pc.Steps P sh pc e sh' pc' := by
  unfold Pc.step at h
  split at h
  case h_8 => exact .acquireWriter (WriterWait.Steps.of_step h)
  all_goals try split at h
  all_goals simp only [Option.some.injEq, Prod.mk.injEq, reduceCtorEq] at h
  all_goals obtain ⟨rfl, rfl⟩ := h
  all_goals first
    | (constructor <;> simp_all)
    | (rename_i hdone; obtain ⟨rfl, hbuffer⟩ := hdone; exact .flushed hbuffer)
    | (rename_i hacq; obtain ⟨seen, rfl, hserving⟩ := Acquire.step_granted hacq
       exact .readerGranted hserving)
    | (rename_i hacq; obtain ⟨⟨seen, rfl⟩, hpoison⟩ := Acquire.step_refused hacq
       exact .readerRefused hpoison)
    | (rename_i hreply; subst hreply; exact .requestAccepted)
    | (rename_i hreply; obtain rfl := Bool.eq_false_of_not_eq_true hreply; exact .noticeAccepted)

/-- Operations that take reader tickets are only added. -/
theorem Pc.Steps.readOps_mono {P : GlobalProtocol V} {sh sh' : Shared} {pc pc' : Pc V} {e : Event}
    (h : pc.Steps P sh e sh' pc') : sh.history.readOps <+: sh'.history.readOps := by
  cases h with
  | acceptGlobalRequest | pairReader => exact List.prefix_append _ _
  | acquireWriter hwait => cases hwait <;> exact List.prefix_rfl
  | @dropAct act => cases act <;> exact List.prefix_rfl
  | _ => exact List.prefix_rfl

/-- A step of the conversation is a step of one task, or bytes arrive. -/
theorem step_task {P : GlobalProtocol V} {s s' : Conversation V} {i : ℕ} {e : Event}
    (h : s.step P (.task i e) = some s') :
    ∃ pc', (s.tasks i).Steps P s.shared e s'.shared pc' ∧
      s'.tasks = Function.update s.tasks i pc' := by
  obtain ⟨⟨sh', pc'⟩, hstep, rfl⟩ := Option.map_eq_some_iff.mp h
  exact ⟨pc', .of_step hstep, rfl⟩

/-- All tasks after a step of task `i`: the new one, and the others as they were. -/
theorem forall_tasks {s s' : Conversation V} {i : ℕ} {pc' : Pc V}
    (h : s'.tasks = Function.update s.tasks i pc') {Q : Pc V → Prop} :
    (∀ j, Q (s'.tasks j)) ↔ Q pc' ∧ ∀ j ≠ i, Q (s.tasks j) := by
  rw [h]
  exact Function.forall_update_iff _ fun _ pc => Q pc

/-- Whether an action is one of a task below `n`, or of the peer. -/
def Action.below (n : ℕ) : Action → Bool
  | task i _ => decide (i < n)
  | arrive _ => true

/-- A run does not touch the tasks it does not name. -/
theorem tasks_of_exec {P : GlobalProtocol V} {s s' : Conversation V} {as : List Action} {n : ℕ}
    (h : (machine P).exec s as = some s') (hbelow : ∀ a ∈ as, a.below n = true) {i : ℕ}
    (hi : n ≤ i) : s'.tasks i = s.tasks i := by
  induction as generalizing s with
  | nil =>
    simp only [Machine.exec, Option.some.injEq] at h
    rw [h]
  | cons a as ih =>
    obtain ⟨t, ht, h⟩ := Option.bind_eq_some_iff.mp h
    rw [ih h fun b hb => hbelow b (List.mem_cons_of_mem _ hb)]
    have ha := hbelow a List.mem_cons_self
    cases a with
    | arrive bytes =>
      obtain rfl := Option.some.inj ht
      rfl
    | task j e =>
      obtain ⟨pc', -, htasks⟩ := step_task ht
      have hj : j < n := of_decide_eq_true ha
      rw [htasks, Function.update_of_ne (by omega)]

end Conversation

end Dssh
