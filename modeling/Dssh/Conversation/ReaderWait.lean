import Dssh.Conversation.Acquire
import Dssh.Conversation.Requests
import Dssh.Conversation.Wakeup

/-!
# Waiting for the reader

`acquire_reader` is one call of `OrderedAccess::acquire`, without the outer loop that the writer
has. What a task has found out when it parks is the same: the flag and the counter are loaded
after it has registered, and whoever changes one of them notifies afterwards.

Reader tickets are taken by requests, for their responses, and by `accept_global_request`. They
are lost by cancelling a future that waits, for the reader or still for the writer, and by
failing to write a request. The latter poisons the session, though not at once: between the
failure and the store the ticket is nobody's, and the session is not poisoned yet.

## The gap before the poison

`send_global_request` takes its two tickets first, and then writes. If the write fails, the
function returns with the reader ticket unused. A reader behind it would wait for ever, were it
not for the poison flag, which is set by the same failure. So the right invariant is not "every
outstanding reader ticket is held". It is: unless the session is poisoned *or a task in drop
glue is going to poison it* (`ReadersOwned`). For the writer no such gap exists, since a writer
that fails has used its ticket.

Cancellation has no such excuse. A future that is dropped at `notified.await`, or while it waits
for the writer with the reader ticket in its hands, poisons nothing, and its ticket is gone.

## The mutex

It is a `std` mutex and guards nothing but the order of two operations. A task that holds it
takes two tickets and unlocks; it cannot be cancelled there, as there is no await. So a locked
mutex is held by a task (`exists_holdsPairLock`), which can go on.

## Main definitions

* `Conversation.readerNotifier` — those who wait for the reader
* `Conversation.ReadersOwned` — no reader ticket is lost
* `Pc.MayLoseReader` — where one can be

## Main results

* `Conversation.readerChecked` — what the loads of a waiting reader have established
* `Conversation.ReadersOwned.step` — reader tickets are not lost as long as nobody who waits is
  cancelled and nobody is about to poison the session
* `Conversation.exists_holdsPairLock` — a locked mutex is held by a task
-/

namespace Dssh

open TicketQueue

namespace Conversation

variable {V : Type}

/-! ## One operation of `acquire`

What is needed of `acquire` for the reader. Only one of its operations can be pending, and behind
each of the others the task goes on. -/

namespace Acquire

variable {oa : OrderedAccess} {poisoned : Bool} {t : ℕ} {acq acq' : Acquire}

/-- The operations after which a task is still waiting. -/
theorem step_wait (h : acq.step oa poisoned t = some (.wait acq')) :
    (acq = .register ∧ acq' = .checkPoison oa.notifyCalls) ∨
      (∃ seen, acq = .checkPoison seen ∧ poisoned = false ∧ acq' = .checkServing seen) ∨
      (∃ seen, acq = .checkServing seen ∧ oa.currentServing ≠ t ∧ acq' = .await seen) ∨
      ∃ seen, acq = .await seen ∧ oa.notifyCalls ≠ seen ∧ acq' = .register := by
  cases acq with
  | register =>
    simp only [step, Option.some.injEq, Next.wait.injEq] at h
    exact Or.inl ⟨rfl, h.symm⟩
  | checkPoison seen =>
    cases poisoned <;> simp [step] at h
    exact Or.inr (Or.inl ⟨seen, rfl, rfl, h.symm⟩)
  | checkServing seen =>
    by_cases hs : oa.currentServing = t <;> simp [step, hs] at h
    exact Or.inr (Or.inr (Or.inl ⟨seen, rfl, hs, h.symm⟩))
  | await seen =>
    by_cases hs : oa.notifyCalls = seen <;> simp [step, hs] at h
    exact Or.inr (Or.inr (Or.inr ⟨seen, rfl, hs, h.symm⟩))

/-- Only `notified.await` is ever pending. -/
theorem of_step_eq_none (h : acq.step oa poisoned t = none) :
    acq = .await oa.notifyCalls := by
  cases acq with
  | await seen =>
    by_cases hs : oa.notifyCalls = seen
    · rw [hs]
    · simp [step, hs] at h
  | _ => simp [step] at h

end Acquire

/-! ## What is announced to the readers

The same argument as for the writers, for the other counter. Drop glue that releases the reader
guard notifies the readers behind it, and so does poisoning. -/

/-- What comes behind does not matter. -/
theorem owes_append {side : Side} {xs : List DropAct} (h : owes side xs) (ys : List DropAct) :
    owes side (xs ++ ys) := by
  induction xs with
  | nil => exact h.elim
  | cons act acts ih => exact ⟨h.1, h.2.imp_right ih⟩

/-- Drop glue that announces, and then some more. -/
theorem announcedOn.append {side : Side} {xs ys : List DropAct} (hx : announcedOn side xs)
    (hy : announcedOn side ys) : announcedOn side (xs ++ ys) := by
  induction xs with
  | nil => exact hy
  | cons act acts ih => exact ⟨fun hact => owes_append (hx.1 hact) ys, ih hx.2⟩

/-- Forgetting a ticket is nobody else's concern. -/
theorem announcedOn_forgetTicket (side : Side) (w : Option ℕ) :
    announcedOn side (forgetTicket w) := by
  cases w with
  | none => trivial
  | some w => exact ⟨False.elim, trivial⟩

namespace Pc

/-- A task in drop glue that will notify the readers of what it has done. -/
def OwesReaders : Pc V → Prop
  | unwinding acts _ => owes .reader acts
  | _ => False

/-- A task in drop glue announces to the readers what it changes. -/
def AnnouncesToReaders : Pc V → Prop
  | unwinding acts _ => announcedOn .reader acts
  | _ => True

variable {P : GlobalProtocol V} {sh sh' : Shared} {pc pc' : Pc V} {e : Event}

/-- A task goes on to announce what it will do. -/
theorem Steps.announcesToReaders (ha : pc.AnnouncesToReaders) (h : pc.Steps P sh e sh' pc') :
    pc'.AnnouncesToReaders := by
  have hpoison := announcedOn_poison .reader
  have hreader := announcedOn_dropGuard .reader .reader
  have hwriter := announcedOn_dropGuard .reader .writer
  cases h with
  | acquireWriter hwait => cases hwait with
    | drainFlushed | drainWriteCancel => exact hwriter _
    | drainIoError =>
      exact ((hwriter _).append hpoison).append (announcedOn_forgetTicket _ (some _))
    | _ => trivial
  | @readerGranted op => cases op <;> trivial
  | flushed => exact hwriter _
  | writeIoError | writeCancel => exact hpoison.append (hwriter _)
  | headerIoError | headerCancel | headerFailed => exact hpoison.append (hreader _)
  | responseIoError | responseCancel | responseFailed | responseDone | requestDecoded
  | noticeDecoded => exact hreader _
  | dropIncoming | payloadIoError | payloadCancel | payloadFailed =>
    exact (hpoison.append (hreader _)).append (announcedOn_forgetTicket _ _)
  | dropDecoded => exact ⟨False.elim, False.elim, trivial⟩
  | dropAct => exact ha.2
  | @resume next => cases next <;> trivial
  | _ => trivial

/-- Notifications are not taken back. -/
theorem Steps.readerCalls_le (h : pc.Steps P sh e sh' pc') :
    sh.reader.notifyCalls ≤ sh'.reader.notifyCalls := by
  cases h with
  | acquireWriter hwait => cases hwait <;> exact le_rfl
  | @dropAct act =>
    have hcalls := DropAct.notifyCalls_exec .reader act sh
    simp only [Shared.access] at hcalls
    omega
  | _ => exact le_rfl

/-- A step that leaves no notification of the readers pending changes nothing that they load. -/
theorem Steps.of_quiet_readers (ha : pc.AnnouncesToReaders) (h : pc.Steps P sh e sh' pc')
    (hcalls : sh'.reader.notifyCalls = sh.reader.notifyCalls) (howes : ¬ pc'.OwesReaders) :
    ¬ pc.OwesReaders ∧ sh'.poisoned = sh.poisoned ∧
      sh'.reader.currentServing = sh.reader.currentServing := by
  cases h with
  | acquireWriter hwait => cases hwait <;> exact ⟨id, rfl, rfl⟩
  | @dropAct act acts next =>
    have hexec := DropAct.exec_of_not_concerns (fun hact => howes (ha.1 hact)) sh
    refine ⟨?_, hexec⟩
    rintro ⟨-, rfl | hacts⟩
    · exact absurd hcalls (Nat.succ_ne_self _)
    · exact howes hacts
  | resume => exact ⟨id, rfl, rfl⟩
  | _ => exact ⟨id, rfl, rfl⟩

end Pc

/-! ## What the loads establish

There is one loop here, and no automatic failures: a reader that is parked has loaded the flag
and the counter behind its registration. -/

end Conversation

namespace Conversation

variable {V : Type} {P : GlobalProtocol V} {s s' : Conversation V} {i t seen : ℕ}

/-- Every task announces what it will do. -/
theorem announcesToReaders (hs : (machine P).Reachable s) (i : ℕ) :
    (s.tasks i).AnnouncesToReaders := by
  refine hs.invariant (I := fun s => ∀ i, (s.tasks i).AnnouncesToReaders) (fun _ => trivial)
    (fun {s a s'} _ ha _ h => ?_) i
  cases a with
  | arrive bytes =>
    obtain rfl := Option.some.inj h
    exact ha
  | task i e =>
    obtain ⟨pc', hst, htasks⟩ := step_task h
    exact (forall_tasks htasks).mpr ⟨hst.announcesToReaders (ha i), fun j _ => ha j⟩

/-- The notifier of the reader. -/
def readerNotifier (V : Type) : Notifier (Conversation V) where
  calls s := s.shared.reader.notifyCalls
  Owed s := ∃ i, (s.tasks i).OwesReaders

/-- A step of a run. -/
def Taken (P : GlobalProtocol V) (s s' : Conversation V) : Prop :=
  (machine P).Reachable s ∧ ∃ a, s.step P a = some s'

/-- Whatever is said of the flag and the counter is announced to the readers. -/
theorem readers_announced (p : Bool → ℕ → Prop) :
    (readerNotifier V).Announces (Taken P)
      fun s => p s.shared.poisoned s.shared.reader.currentServing := by
  have hquiet : ∀ {s s' : Conversation V}, Taken P s s' →
      (readerNotifier V).calls s' = (readerNotifier V).calls s → ¬ (readerNotifier V).Owed s' →
      ¬ (readerNotifier V).Owed s ∧ s'.shared.poisoned = s.shared.poisoned ∧
        s'.shared.reader.currentServing = s.shared.reader.currentServing := by
    rintro s s' ⟨hs, a, h⟩ hcalls howed
    cases a with
    | arrive bytes =>
      obtain rfl := Option.some.inj h
      exact ⟨howed, rfl, rfl⟩
    | task i e =>
      obtain ⟨pc', hst, htasks⟩ := step_task h
      obtain ⟨hpc', hothers⟩ :=
        (forall_tasks (Q := fun pc => ¬ pc.OwesReaders) htasks).mp (not_exists.mp howed)
      obtain ⟨hpc, hloads⟩ := hst.of_quiet_readers (announcesToReaders hs i) hcalls hpc'
      refine ⟨?_, hloads⟩
      rintro ⟨j, hj⟩
      by_cases hji : j = i
      · exact hpc (hji ▸ hj)
      · exact hothers j hji hj
  refine ⟨?_, fun h hcalls howed => (hquiet h hcalls howed).1, fun h hcalls howed hp => ?_⟩
  · rintro s s' ⟨-, a, h⟩
    cases a with
    | arrive bytes =>
      obtain rfl := Option.some.inj h
      exact le_rfl
    | task i e =>
      obtain ⟨pc', hst, -⟩ := step_task h
      exact hst.readerCalls_le
  · obtain ⟨-, hpoisoned, hserving⟩ := hquiet h hcalls howed
    rw [hpoisoned, hserving]
    exact hp

/-- What the loads behind its registration have established for a waiting reader. -/
def ReaderChecked (s : Conversation V) : Pc V → Prop
  | .acquireReader _ _ (.checkPoison seen) => seen ≤ (readerNotifier V).calls s
  | .acquireReader _ _ (.checkServing seen) =>
    (readerNotifier V).Established (fun s => s.shared.poisoned = false) s seen
  | .acquireReader _ t (.await seen) =>
    (readerNotifier V).Established
      (fun s => s.shared.poisoned = false ∧ s.shared.reader.currentServing ≠ t) s seen
  | _ => True

/-- What is established lasts. -/
theorem ReaderChecked.of_taken (h : Taken P s s') {pc : Pc V} (hc : s.ReaderChecked pc) :
    s'.ReaderChecked pc := by
  cases pc with
  | acquireReader op t acq => cases acq with
    | register => trivial
    | checkPoison seen => exact le_trans hc ((readers_announced fun _ _ => True).calls_le h)
    | checkServing seen =>
      exact (readers_announced fun poisoned _ => poisoned = false).established h hc
    | await seen =>
      exact (readers_announced fun poisoned serving =>
        poisoned = false ∧ serving ≠ t).established h hc
  | _ => trivial

/-- The task that takes the step establishes what its new place says. -/
theorem ReaderChecked.of_own_step {e : Event} {pc' : Pc V} (h : Taken P s s')
    (hc : s.ReaderChecked (s.tasks i)) (hst : (s.tasks i).Steps P s.shared e s'.shared pc') :
    s'.ReaderChecked pc' := by
  generalize s.tasks i = pc at hc hst
  generalize hsh : s'.shared = sh' at hst
  cases hst with
  | acquireWriter hwait => cases hwait <;> trivial
  | readerWait hacq =>
    obtain ⟨rfl, rfl⟩ | ⟨seen, rfl, hpoison, rfl⟩ | ⟨seen, rfl, hserving, rfl⟩ |
      ⟨seen, rfl, -, rfl⟩ := Acquire.step_wait hacq
    · show s.shared.reader.notifyCalls ≤ s'.shared.reader.notifyCalls
      rw [hsh]
    · exact ⟨hc.of_taken h, fun _ => hsh ▸ hpoison⟩
    · have hpoisoned := hc.of_taken h
      exact ⟨hpoisoned.seen_le, fun hquiet => ⟨hpoisoned.of_quiet hquiet, hsh ▸ hserving⟩⟩
    · trivial
  | @readerGranted op => cases op <;> trivial
  | @resume next => cases next <;> trivial
  | _ => trivial

/-- What the loads of every waiting reader have established, in every reachable state. -/
theorem readerChecked (hs : (machine P).Reachable s) (i : ℕ) : s.ReaderChecked (s.tasks i) := by
  refine hs.invariant (I := fun s => ∀ i, s.ReaderChecked (s.tasks i)) (fun _ => trivial)
    (fun {s a s'} hs hc _ h => ?_) i
  have htaken : Taken P s s' := ⟨hs, a, h⟩
  cases a with
  | arrive bytes =>
    obtain rfl := Option.some.inj h
    exact fun j => (hc j).of_taken htaken
  | task i e =>
    obtain ⟨pc', hst, htasks⟩ := step_task h
    exact (forall_tasks htasks).mpr
      ⟨.of_own_step htaken (hc i) hst, fun j _ => (hc j).of_taken htaken⟩

/-! ## Reader tickets

A reader ticket is lost when a future is dropped that waits for the reader, and then the queue
stands still. A failure of the writing half of a request also loses one, but poisons the session.
In between, the task is about to poison it, and this is why the ownership has the exception that
it has. -/

/-- A task in drop glue that will poison the session. -/
def Pc.WillPoison : Pc V → Prop
  | unwinding acts _ => DropAct.storePoison ∈ acts
  | _ => False

/-- Inside `acquire_reader`. -/
def Pc.inAcquireReader : Pc V → Bool
  | acquireReader _ _ _ => true
  | _ => false

/-- A future is dropped that waits for the reader of a session that is not poisoned. -/
def CancelsWaitingReader (s : Conversation V) : Action → Prop
  | .task i .cancel => s.shared.poisoned = false ∧ (s.tasks i).inAcquireReader = true
  | _ => False

/-- Every reader ticket that is still to be served is in the hands of a task, unless the session is
poisoned or about to be. -/
def ReadersOwned (s : Conversation V) : Prop :=
  s.shared.poisoned = false → (∀ i, ¬ (s.tasks i).WillPoison) →
    Covered s.shared.readerCounters s.readerHand

/-- Where a ticket of the reader queue can be lost: on a poisoned session, by a failure that poisons
it, and by cancelling a future that waits. -/
inductive Pc.MayLoseReader (sh : Shared) : Pc V → Event → Pc V → Prop
  /-- The session is poisoned. -/
  | refused {pc pc' : Pc V} {e : Event} (hpoison : sh.poisoned = true) : MayLoseReader sh pc e pc'
  /-- It is about to be. -/
  | failed {pc pc' : Pc V} {e : Event} (hpoison : pc'.WillPoison) : MayLoseReader sh pc e pc'
  /-- The future is dropped while it waits for the writer. -/
  | cancelledWriter {op : WriteOp} {t : ℕ} {wait : WriterWait} {pc' : Pc V} :
      MayLoseReader sh (.acquireWriter op t wait) .cancel pc'
  | cancelledReader {op : ReadOp} {t : ℕ} {acq : Acquire} {pc' : Pc V} :
      MayLoseReader sh (.acquireReader op t acq) .cancel pc'

/-- An atomic operation of a task is a step of the reader queue, or a place where tickets are
lost. -/
theorem Pc.Steps.reader_or {sh sh' : Shared} {pc pc' : Pc V} {e : Event} (hs : pc.Single)
    (h : pc.Steps P sh e sh' pc') :
    HandStep sh.readerCounters pc.readerHand sh'.readerCounters pc'.readerHand ∨
      pc.MayLoseReader sh e pc' := by
  cases h with
  | acceptGlobalRequest => exact Or.inl (.take rfl)
  | pairReader => exact Or.inl (.take rfl)
  | @readerGranted op t seen hserving =>
    subst hserving
    cases op <;> exact Or.inl (.grantOwn rfl rfl)
  | readerRefused hpoison => exact Or.inr (.refused hpoison)
  | readerCancel => exact Or.inr .cancelledReader
  | writeIoError | writeCancel =>
    exact Or.inr (.failed (List.mem_append_left _ List.mem_cons_self))
  | acquireWriter hwait =>
    cases hwait with
    | drainRefused hpoison | refused hpoison | acquireRefused hpoison =>
      exact Or.inr (.refused hpoison)
    | drainCancel | cancel | acquireCancel | drainWriteCancel => exact Or.inr .cancelledWriter
    | drainIoError => exact Or.inr (.failed (by simp [Pc.WillPoison, poison]))
    | _ => exact Or.inl .stay
  | dropIncoming | payloadIoError | payloadCancel | payloadFailed =>
    exact Or.inl (by rw [Pc.readerHand_unwinding_forget]; exact .stay)
  | @flushed op t => cases op <;> exact Or.inl .stay
  | @resume next => cases next <;> exact Or.inl .stay
  | @dropAct act acts next => cases act with
    | advanceReader t =>
      rw [Pc.readerHand_advanceReader hs]
      exact Or.inl (.release rfl)
    | storePoison | notifyReader | notifyWriter | advanceWriter | insertAutoFailure
    | forgetTicket => exact Or.inl .stay
  | _ => exact Or.inl .stay

/-- A task that was going to poison the session still is, or has done it. -/
theorem Pc.Steps.willPoison {sh sh' : Shared} {pc pc' : Pc V} {e : Event}
    (h : pc.Steps P sh e sh' pc') (hp : pc.WillPoison) : sh'.poisoned = true ∨ pc'.WillPoison := by
  cases h with
  | @dropAct act acts next =>
    rcases List.mem_cons.mp hp with rfl | hp
    · exact Or.inl rfl
    · exact Or.inr hp
  | resume => exact absurd hp List.not_mem_nil
  | _ => exact hp.elim

/-- **Reader tickets are kept** as long as nobody is cancelled who waits. -/
theorem ReadersOwned.step {a : Action} (hs : (machine P).Reachable s) (hC : ReadersOwned s)
    (hwriter : ¬ CancelsWaitingWriter s a) (hreader : ¬ CancelsWaitingReader s a)
    (h : s.step P a = some s') : ReadersOwned s' := by
  have hI := ticketInv hs
  intro hp' hwill'
  cases a with
  | arrive bytes =>
    obtain rfl := Option.some.inj h
    exact hC hp' hwill'
  | task i e =>
    obtain ⟨pc', hst, htasks⟩ := step_task h
    obtain ⟨hpc', hothers⟩ := (forall_tasks (Q := fun pc => ¬ pc.WillPoison) htasks).mp hwill'
    have hp : s.shared.poisoned = false := by
      by_contra hne
      rw [hst.poisoned (Bool.eq_true_of_not_eq_false hne)] at hp'
      cases hp'
    have hwill : ∀ j, ¬ (s.tasks j).WillPoison := by
      intro j hj
      by_cases hji : j = i
      · subst hji
        rcases hst.willPoison hj with hpoisoned | hwill
        · rw [hp'] at hpoisoned
          cases hpoisoned
        · exact hpc' hwill
      · exact hothers j hji hj
    rw [readerHand_update htasks]
    rcases hst.reader_or (hI.single i) with hr | hlose
    · exact Covered.step hI.reader (hC hp hwill) hr
    · generalize hpc : s.tasks i = pc at hlose
      cases hlose with
      | refused hpoison => exact absurd hpoison (by simp [hp])
      | failed hpoison => exact absurd hpoison hpc'
      | cancelledWriter => exact absurd ⟨hp, by rw [hpc]; rfl⟩ hwriter
      | cancelledReader => exact absurd ⟨hp, by rw [hpc]; rfl⟩ hreader

/-! ## The mutex of the ticket pairs

Whoever holds it takes two tickets and unlocks, without an `await` in between. So nobody waits
for it long. -/

/-- Who locks the mutex holds it. -/
theorem Pc.Steps.holdsPairLock {sh sh' : Shared} {pc pc' : Pc V} {e : Event}
    (h : pc.Steps P sh e sh' pc') (hlock : sh'.ticketPairLock = true) :
    pc'.holdsPairLock = true ∨
      sh.ticketPairLock = true ∧ pc.holdsPairLock = pc'.holdsPairLock := by
  cases h with
  | pairLock | pairWriter | pairReader => exact Or.inl rfl
  | pairUnlock => cases hlock
  | acquireWriter hwait => cases hwait <;> exact Or.inr ⟨hlock, rfl⟩
  | @readerGranted op => cases op <;> exact Or.inr ⟨hlock, rfl⟩
  | @resume next => cases next <;> exact Or.inr ⟨hlock, rfl⟩
  | @dropAct act => cases act <;> exact Or.inr ⟨hlock, rfl⟩
  | _ => exact Or.inr ⟨hlock, rfl⟩

/-- A locked mutex is held by a task. -/
theorem exists_holdsPairLock (hs : (machine P).Reachable s)
    (hlock : s.shared.ticketPairLock = true) : ∃ i, (s.tasks i).holdsPairLock = true := by
  refine hs.invariant
    (I := fun s => s.shared.ticketPairLock = true → ∃ i, (s.tasks i).holdsPairLock = true)
    (fun h => absurd h Bool.false_ne_true) (fun {s a s'} _ hI _ h hlock => ?_) hlock
  cases a with
  | arrive bytes =>
    obtain rfl := Option.some.inj h
    exact hI hlock
  | task i e =>
    obtain ⟨pc', hst, htasks⟩ := step_task h
    rcases hst.holdsPairLock hlock with hpc' | ⟨hlocked, hsame⟩
    · exact ⟨i, by rw [htasks, Function.update_self, hpc']⟩
    · obtain ⟨j, hj⟩ := hI hlocked
      refine ⟨j, ?_⟩
      rw [htasks]
      by_cases hji : j = i
      · rw [hji, Function.update_self, ← hsame, ← hji, hj]
      · rw [Function.update_of_ne hji, hj]

end Conversation

end Dssh
