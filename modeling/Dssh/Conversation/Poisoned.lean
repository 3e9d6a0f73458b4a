import Dssh.Conversation.ReaderWait

/-!
# The end of a poisoned session

Poisoning is for ever, and whoever waits is to be told. A task that waits has yet to load the
flag, for the first time or again, unless it has just loaded it and is about to look whether it
is its turn. On the way to the load there is no loop, and the load refuses.

A parked task needs a notification to get there. On a poisoned session one is pending, whatever
has happened between its registration and the poisoning, and whoever owes it is in drop glue,
where no task waits for anything.

## The exception

A task that has loaded the flag, found it unset, and not yet compared the counter, has passed
the check. If the session is poisoned now and the counter is its ticket, it is granted the guard
and goes on to write or read; if the counter is not, it parks, and the next notification brings
it back to the check. `Pc.toCheck` is `none` for the tasks that are past the check, and the
result is about the others. It is an exception of one load: what such a task does on a poisoned
session is the subject of the modules on the two streams.

## A bound

Seven operations is the longest way: from the place where a writer looks at the counter for the
second time, through `notified.await`, the draining of automatic failures and the registration.
The number matters less than that there is one. Whatever the others do in between, each own
operation of a waiting task on a poisoned session brings it closer to the load, and the load
ends it.

Whether the task gets to make its operations is the scheduler's affair, except at
`notified.await`. There it needs a notification. `runs_or_notified` says that the future is
complete, or a task in drop glue is going to notify, which no other task can keep it from.

## Main definitions

* `Pc.toCheck` — how many operations it takes to load the flag
* `Pc.refusal` — what a waiting task returns when it is refused

## Main results

* `Conversation.refused_of_poisoned` — on a poisoned session a waiting task ends with
  `SessionPoisoned` after at most seven operations of its own, and none of them waits for
  anything but drop glue
-/

namespace Dssh

namespace Conversation

variable {V : Type}

/-! ## The way to the load of the flag

From each place in which a task waits, the number of operations up to the next load of the flag
can be counted. Inside of `acquire_writer` the way may lead through an automatic failure first.
It never leads through a second `await`, as long as the session is poisoned. -/

/-- How many operations it takes to load the flag, at most. -/
def Acquire.toCheck : Acquire → Option ℕ
  | register => some 2
  | checkPoison _ => some 1
  | checkServing _ => none
  | await _ => some 3

/-- The same inside of `acquire_writer`, where the automatic failures come first. -/
def WriterWait.toCheck : WriterWait → Option ℕ
  | drainLoad => some 5
  | drainRemove _ => some 4
  | drainAcquire _ acq => acq.toCheck
  | drainWrite _ _ => none
  | checkServing => some 3
  | register => some 2
  | checkPoison _ => some 1
  | recheckServing _ => some 7
  | await _ => some 6
  | acquire acq => acq.toCheck

namespace Pc

/-- The same for a task that waits; `none` when the load is behind it. -/
def toCheck : Pc V → Option ℕ
  | acquireWriter _ _ wait => wait.toCheck
  | acquireReader _ _ acq => acq.toCheck
  | _ => none

/-- What a waiting task returns when it is refused. -/
def refusal : Pc V → Option (Outcome V)
  | acquireWriter op t _ => some (op.failed t .sessionPoisoned)
  | acquireReader op t _ => some (op.refused t)
  | _ => none

/-- Seven at most. -/
theorem toCheck_le {pc : Pc V} {n : ℕ} (h : pc.toCheck = some n) : n ≤ 7 := by
  cases pc with
  | acquireWriter op t wait =>
    cases wait with
    | drainAcquire c acq | acquire acq =>
      cases acq <;> simp [toCheck, WriterWait.toCheck, Acquire.toCheck] at h <;> omega
    | _ => simp [toCheck, WriterWait.toCheck] at h <;> omega
  | acquireReader op t acq => cases acq <;> simp [toCheck, Acquire.toCheck] at h <;> omega
  | _ => simp [toCheck] at h

end Pc

/-- On a poisoned session, an operation of `acquire` that goes on waiting comes closer to the load.
-/
theorem Acquire.toCheck_step {oa : OrderedAccess} {t n : ℕ} {acq acq' : Acquire}
    (hcheck : acq.toCheck = some n) (h : acq.step oa true t = some (.wait acq')) :
    ∃ m < n, acq'.toCheck = some m := by
  obtain ⟨rfl, rfl⟩ | ⟨seen, rfl, hp, -⟩ | ⟨seen, rfl, -, -⟩ | ⟨seen, rfl, -, rfl⟩ := step_wait h
  · exact ⟨1, by simp [toCheck] at hcheck; omega, rfl⟩
  · cases hp
  · cases hcheck
  · exact ⟨2, by simp [toCheck] at hcheck; omega, rfl⟩

/-- **One operation on a poisoned session.** A waiting task comes closer to the load of the flag, or
it is refused, unless its future is dropped. -/
theorem Pc.Steps.toCheck {P : GlobalProtocol V} {sh sh' : Shared} {pc pc' : Pc V}
    {e : Event} {n : ℕ}
    (h : pc.Steps P sh e sh' pc') (hp : sh.poisoned = true) (hcheck : pc.toCheck = some n)
    (hcancel : e ≠ .cancel) :
    (∃ m < n, pc'.toCheck = some m ∧ pc'.refusal = pc.refusal) ∨
      0 < n ∧ ∃ o, pc' = .finished o ∧ pc.refusal = some o := by
  cases h with
  | @acquireWriter op t wait e sh' pc' hwait =>
    change wait.toCheck = some n at hcheck
    cases hwait with
    | drainWait hacq | acquireWait hacq =>
      rw [hp] at hacq
      obtain ⟨m, hm, hacq'⟩ := Acquire.toCheck_step hcheck hacq
      exact Or.inl ⟨m, hm, hacq', rfl⟩
    | drainRefused | refused | acquireRefused =>
      obtain rfl := Option.some.inj hcheck
      exact Or.inr ⟨Nat.one_pos, _, rfl, rfl⟩
    | notRefused hpoison => rw [hp] at hpoison; cases hpoison
    | drainCancel | drainWriteCancel | cancel | acquireCancel => exact absurd rfl hcancel
    | drainGranted | acquireGranted | drainWrite | drainPush | drainFlushed | drainIoError =>
      cases hcheck
    | _ =>
      obtain rfl := Option.some.inj hcheck
      exact Or.inl ⟨_, by decide, rfl, rfl⟩
  | readerWait hacq =>
    rw [hp] at hacq
    obtain ⟨m, hm, hacq'⟩ := Acquire.toCheck_step hcheck hacq
    exact Or.inl ⟨m, hm, hacq', rfl⟩
  | readerRefused =>
    obtain rfl := Option.some.inj hcheck
    exact Or.inr ⟨Nat.one_pos, _, rfl, rfl⟩
  | readerCancel => exact absurd rfl hcancel
  | _ => cases hcheck

end Conversation

namespace Conversation

variable {V : Type} {P : GlobalProtocol V} {s s' : Conversation V} {i : ℕ}

/-! ## Nothing is pending for ever

A task may be parked when the session is poisoned. Then the task that has poisoned it, or another
one behind it, is in drop glue with the notification still to come; and drop glue does not wait
for anybody. -/

/-- A task in drop glue that will notify those who wait. -/
def Pc.WillNotify : Pc V → Prop
  | unwinding acts _ => DropAct.notifyReader ∈ acts ∨ DropAct.notifyWriter ∈ acts
  | _ => False

/-- What is owed is a notification. -/
theorem notify_of_owes {acts : List DropAct} (h : owes .reader acts) :
    DropAct.notifyReader ∈ acts := by
  induction acts with
  | nil => exact h.elim
  | cons act acts ih =>
    obtain ⟨-, rfl | h⟩ := h
    · exact List.mem_cons_self
    · exact List.mem_cons_of_mem act (ih h)

/-- On a poisoned session, who waits can go on, or is about to be notified. -/
theorem runs_or_notified (hs : (machine P).Reachable s) (hp : s.shared.poisoned = true) {n : ℕ}
    (hcheck : (s.tasks i).toCheck = some n) :
    (s.step P (.task i .run)).isSome = true ∨ ∃ j, (s.tasks j).WillNotify := by
  have hwriter : ∀ {t seen}, (s.tasks i).parked = some (t, seen) →
      s.shared.writer.notifyCalls = seen → ∃ j, (s.tasks j).WillNotify := by
    intro t seen hparked hcalls
    obtain ⟨op, hpc⟩ := eq_of_parked hs hparked
    have hc := checked hs i
    rw [hpc] at hc
    by_contra hnone
    refine absurd (hc.2 ⟨hcalls, fun j howes => hnone ⟨j, ?_⟩⟩).1 (by simp [hp])
    generalize s.tasks j = pc at howes
    cases pc with
    | unwinding acts next => exact Or.inr howes
    | _ => exact howes.elim
  have hstep : ((s.tasks i).step P s.shared .run).isSome = true →
      (s.step P (.task i .run)).isSome = true := fun h => by rw [step, Option.isSome_map, h]
  generalize hpc : s.tasks i = pc at hcheck hwriter hstep
  cases pc with
  | acquireWriter op t wait => cases wait with
    | await seen =>
      by_cases hcalls : s.shared.writer.notifyCalls = seen
      · exact Or.inr (hwriter rfl hcalls)
      · exact Or.inl (hstep (by simp [Pc.step, stepAcquireWriter, hcalls]))
    | drainRemove c =>
      refine Or.inl (hstep ?_)
      by_cases hmem : c ∈ s.shared.autoFailures <;> simp [Pc.step, stepAcquireWriter, hmem]
    | drainAcquire c acq | acquire acq => cases acq with
      | await seen =>
        by_cases hcalls : s.shared.writer.notifyCalls = seen
        · exact Or.inr (hwriter rfl hcalls)
        · exact Or.inl (hstep (by simp [Pc.step, stepAcquireWriter, Acquire.step, hcalls]))
      | checkServing => cases hcheck
      | _ => exact Or.inl (hstep (by simp [Pc.step, stepAcquireWriter, Acquire.step, hp]))
    | drainWrite => cases hcheck
    | _ => exact Or.inl (hstep rfl)
  | acquireReader op t acq => cases acq with
    | await seen =>
      by_cases hcalls : s.shared.reader.notifyCalls = seen
      · have hc := readerChecked hs i
        rw [hpc] at hc
        by_contra hnone
        obtain ⟨hrun, hnotify⟩ := not_or.mp hnone
        refine absurd (hc.of_quiet ⟨hcalls, ?_⟩).1 (by simp [hp])
        rintro ⟨j, howes⟩
        refine hnotify ⟨j, ?_⟩
        generalize s.tasks j = pc at howes
        cases pc with
        | unwinding acts next => exact Or.inl (notify_of_owes howes)
        | _ => exact howes.elim
      · exact Or.inl (hstep (by simp [Pc.step, Acquire.step, hcalls]))
    | checkServing => cases hcheck
    | _ => exact Or.inl (hstep (by simp [Pc.step, Acquire.step, hp]))
  | _ => cases hcheck

/-! ## Whole runs

Put together along a run: the operations of the task are counted down, and those of all others
leave the count alone. -/

/-- An action of task `i`. -/
def Action.isOf (i : ℕ) : Action → Bool
  | task j _ => decide (j = i)
  | arrive _ => false

/-- A poisoned session stays so … -/
theorem poisoned_step {a : Action} (hp : s.shared.poisoned = true) (h : s.step P a = some s') :
    s'.shared.poisoned = true := by
  cases a with
  | arrive bytes =>
    obtain rfl := Option.some.inj h
    exact hp
  | task j e =>
    obtain ⟨pc', hst, -⟩ := step_task h
    exact hst.poisoned hp

/-- … in every run. -/
theorem poisoned_exec {as : List Action} (hp : s.shared.poisoned = true)
    (h : (machine P).exec s as = some s') : s'.shared.poisoned = true := by
  refine Machine.Leads.invariant (I := fun s : Conversation V => s.shared.poisoned = true)
    (p := fun _ => True) (fun hp _ hst => ?_) ⟨as, fun _ _ => trivial, h⟩ hp
  exact poisoned_step hp hst

/-- A finished task takes no step. -/
theorem exec_finished {o : Outcome V} {as : List Action} (hpc : s.tasks i = .finished o)
    (h : (machine P).exec s as = some s') :
    as.countP (Action.isOf i) = 0 ∧ s'.tasks i = .finished o := by
  induction as generalizing s with
  | nil =>
    obtain rfl := Option.some.inj h
    exact ⟨rfl, hpc⟩
  | cons a as ih =>
    obtain ⟨u, hu, hexec⟩ := Option.bind_eq_some_iff.mp h
    cases a with
    | arrive bytes =>
      obtain rfl := Option.some.inj hu
      exact ih (s := s.arrive bytes) hpc hexec
    | task j e =>
      obtain ⟨pc', hst, htasks⟩ := step_task hu
      have hj : j ≠ i := by
        rintro rfl
        rw [hpc] at hst
        cases hst
      rw [List.countP_cons_of_neg (by simp [Action.isOf, hj])]
      exact ih (by rw [htasks, Function.update_of_ne (Ne.symm hj), hpc]) hexec

/-- In a run on a poisoned session, the operations of a waiting task are counted. -/
theorem toCheck_exec {o : Outcome V} {n : ℕ} {as : List Action} (hp : s.shared.poisoned = true)
    (hcheck : (s.tasks i).toCheck = some n) (hrefusal : (s.tasks i).refusal = some o)
    (hcancel : Action.task i .cancel ∉ as) (h : (machine P).exec s as = some s') :
    as.countP (Action.isOf i) ≤ n ∧
      (s'.tasks i = .finished o ∨ ∃ m, (s'.tasks i).toCheck = some m) := by
  induction as generalizing s n with
  | nil =>
    obtain rfl := Option.some.inj h
    exact ⟨Nat.zero_le n, Or.inr ⟨n, hcheck⟩⟩
  | cons a as ih =>
    obtain ⟨u, hu, hexec⟩ := Option.bind_eq_some_iff.mp h
    obtain ⟨hne, hrest⟩ := not_or.mp (mt List.mem_cons.mpr hcancel)
    cases a with
    | arrive bytes =>
      obtain rfl := Option.some.inj hu
      exact ih (s := s.arrive bytes) hp hcheck hrefusal hrest hexec
    | task j e =>
      obtain ⟨pc', hst, htasks⟩ := step_task hu
      have hpu := hst.poisoned hp
      by_cases hj : j = i
      · subst hj
        have hpc' : u.tasks j = pc' := by rw [htasks, Function.update_self]
        rw [List.countP_cons_of_pos (by simp [Action.isOf])]
        obtain ⟨m, hm, hcheck', hrefusal'⟩ | ⟨hn, o', rfl, ho'⟩ :=
          hst.toCheck hp hcheck fun he => hne (he ▸ rfl)
        · obtain ⟨hcount, hend⟩ := ih hpu (hpc' ▸ hcheck') (hpc' ▸ hrefusal'.trans hrefusal)
            hrest hexec
          exact ⟨by omega, hend⟩
        · obtain rfl : o' = o := Option.some.inj (ho'.symm.trans hrefusal)
          obtain ⟨hcount, hend⟩ := exec_finished hpc' hexec
          exact ⟨by omega, Or.inl hend⟩
      · have hpc' : u.tasks i = s.tasks i := by rw [htasks, Function.update_of_ne (Ne.symm hj)]
        rw [List.countP_cons_of_neg (by simp [Action.isOf, hj])]
        exact ih hpu (hpc' ▸ hcheck) (hpc' ▸ hrefusal) hrest hexec

/-- **Everybody is told.** On a poisoned session, a task that waits for a ticket and has not just
loaded the flag takes at most seven more operations, whatever the others do in between, and unless
its future is dropped it ends with `SessionPoisoned`: as long as it has not, it can go on, or a task
in drop glue is about to notify. -/
theorem refused_of_poisoned {o : Outcome V} {as : List Action} (hs : (machine P).Reachable s)
    (hp : s.shared.poisoned = true) (hwaits : (s.tasks i).toCheck.isSome = true)
    (hrefusal : (s.tasks i).refusal = some o) (hcancel : Action.task i .cancel ∉ as)
    (h : (machine P).exec s as = some s') :
    as.countP (Action.isOf i) ≤ 7 ∧
      (s'.tasks i = .finished o ∨ (s'.step P (.task i .run)).isSome = true ∨
        ∃ j, (s'.tasks j).WillNotify) := by
  obtain ⟨n, hcheck⟩ := Option.isSome_iff_exists.mp hwaits
  obtain ⟨hcount, hend⟩ := toCheck_exec hp hcheck hrefusal hcancel h
  refine ⟨hcount.trans (Pc.toCheck_le hcheck), hend.imp_right ?_⟩
  rintro ⟨m, hm⟩
  exact runs_or_notified (Machine.reach_of_exec hs h) (poisoned_exec hp h) hm

deriving instance DecidableEq for Outcome

/-- The first task is writing, and the second waits for its turn; then the transport fails the
first, which poisons the session and is through with its drop glue. -/
def poisonedRun : List Action :=
  waitingRun ++ .task 0 .ioError :: List.replicate 6 (.task 0 .run)

/-- What the second task waits with is refused to it. -/
theorem poisonedRun_refused :
    ∃ s s', (machine .empty).exec (initial : Conversation Unit) poisonedRun = some s ∧
      (machine .empty).exec s (List.replicate 6 (.task 1 .run)) = some s' ∧
      (List.replicate 6 (Action.task 1 .run)).countP (Action.isOf 1) ≤ 7 ∧
      (s'.tasks 1 = .finished (.notification (.error .sessionPoisoned)) ∨
        (s'.step .empty (.task 1 .run)).isSome = true ∨ ∃ j, (s'.tasks j).WillNotify) := by
  obtain ⟨s, hexec, htest⟩ := (Option.any_eq_true
    (fun s : Conversation Unit => s.shared.poisoned && (s.tasks 1).toCheck.isSome &&
      decide ((s.tasks 1).refusal = some (.notification (.error .sessionPoisoned))) &&
      ((machine .empty).exec s (List.replicate 6 (.task 1 .run))).isSome)
    ((machine .empty).exec initial poisonedRun)).mp (by decide)
  simp only [Bool.and_eq_true, decide_eq_true_eq] at htest
  obtain ⟨⟨⟨hp, hwaits⟩, hrefusal⟩, hexec'⟩ := htest
  obtain ⟨s', hs'⟩ := Option.isSome_iff_exists.mp hexec'
  refine ⟨s, s', hexec, hs', refused_of_poisoned (Machine.reach_of_exec .init hexec) hp hwaits
    hrefusal (fun hmem => ?_) hs'⟩
  cases List.eq_of_mem_replicate hmem

end Conversation

end Dssh
