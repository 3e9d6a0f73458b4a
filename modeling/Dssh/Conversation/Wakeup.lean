import Dssh.Conversation.Tickets

/-!
# Waiting for the writer

A task that waits in `acquire_writer` registers a `Notified` future, checks once more, and
parks. `notify_waiters` wakes the futures registered before the call and leaves nothing for
later ones, so a change that a parked task must act on has to be either announced after the
registration or seen by one of the checks after it.

The changes are poisoning, the advance of `current_serving`, and a new automatic failure, and
drop glue announces each of them. The checks after the registration are those of the poison flag
and of the own ticket: the automatic failures are looked at before it only.

## What a parked task has to act on

Three things. If the session is poisoned, it must return. If its own ticket is served, it must
write. And if the ticket being served was abandoned by a request that wants a reply, the failure
has to be written by somebody, and that is whoever waits: there is no task of its own for it.
`RightlyParked` says that none of the three is the case as long as no notification is on its
way.

The third is easy to overlook. The waiter with the abandoned ticket's successor is the natural
one to drain it, and if nobody else comes, it is the only one.

## The window

`drain_auto_failures` looks at the set and finds nothing. The set gains the ticket, and
`notify_waiters` is called. The waiter registers. Its poison check passes, its own ticket is not
served, and it parks. Nothing will wake it, since nothing changes any more: the ticket being
served is to be written by it. `missedFailureRun` is this order of operations, from the request
that is accepted and dropped.

The other two changes have the same window, and the recheck after the registration closes it for
them. That is `checked`: of what the checks establish, nothing is lost until a notification
comes.

## The condition

A task misses a failure when its *last* check passes while the ticket being served is one, and
nothing is pending for it (`MissesAutoFailure`). This is a condition on the state before a step,
and it says nothing about the outcome of the step. That it is exact is shown along runs: as long
as no step misses a failure, every parked task is right to wait, and the first step that does
leaves one that is not.

## Main definitions

* `announced` — drop glue announces what it changes
* `Conversation.Quiet` — no notification is pending for a registration
* `Conversation.RightlyParked`, `Conversation.MissesAutoFailure`
* `Conversation.Checked` — what the checks have established

## Main results

* `Conversation.checked` — what the two checks are good for: a parked task with no notification
  pending is not poisoned and not next
* `Conversation.rightlyParked_iff` — and the ticket being served is not an automatic failure
  exactly as long as no task parks where a third check would have found one
* `Conversation.missedFailureRun_not_rightlyParked` — a run in which one does
-/

namespace Dssh

open TicketQueue

namespace Conversation

variable {V : Type}

/-! ## Notifications

The writers are notified when the counter has moved, when the session has been poisoned, and when
an automatic failure has been inserted. As with the readers, what is changed first is announced
later. -/

/-- The changes a waiting writer has to be told of. -/
def DropAct.concernsWriters : DropAct → Prop
  | storePoison => True
  | advanceWriter _ => True
  | insertAutoFailure _ => True
  | _ => False

/-- Drop glue announces what it changes: a `notify_waiters` on the writer comes later. -/
def announced : List DropAct → Prop
  | [] => True
  | act :: acts => (act.concernsWriters → DropAct.notifyWriter ∈ acts) ∧ announced acts

/-- Glue after glue. -/
theorem announced.append {xs ys : List DropAct} (hx : announced xs) (hy : announced ys) :
    announced (xs ++ ys) := by
  induction xs with
  | nil => exact hy
  | cons act acts ih =>
    exact ⟨fun hact => List.mem_append_left _ (hx.1 hact), ih hx.2⟩

/-- `poison` notifies after it has set the flag. -/
theorem announced_poison : announced poison :=
  ⟨fun _ => by simp, False.elim, False.elim, trivial⟩

/-- The guard of the writer notifies after it has advanced the counter. -/
theorem announced_dropWriterGuard (t : ℕ) : announced (dropWriterGuard t) :=
  ⟨fun _ => by simp, False.elim, trivial⟩

/-- The guard of the reader changes nothing a writer waits for. -/
theorem announced_dropReaderGuard (t : ℕ) : announced (dropReaderGuard t) :=
  ⟨False.elim, False.elim, trivial⟩

/-- A ticket that is left behind is announced after it has been inserted. -/
theorem announced_forgetTicket (w : Option ℕ) : announced (forgetTicket w) := by
  cases w with
  | none => trivial
  | some w => exact ⟨False.elim, trivial⟩

namespace Pc

/-- A task in drop glue announces what it changes. -/
def Announces : Pc V → Prop
  | unwinding acts _ => announced acts
  | _ => True

/-- Every place has glue that announces what it changes. -/
theorem Steps.announces {P : GlobalProtocol V} {sh sh' : Shared} {pc pc' : Pc V} {e : Event}
    (ha : pc.Announces) (h : pc.Steps P sh e sh' pc') : pc'.Announces := by
  cases h with
  | acquireWriter hwait => cases hwait with
    | drainFlushed | drainWriteCancel => exact announced_dropWriterGuard _
    | drainIoError =>
      exact ((announced_dropWriterGuard _).append announced_poison).append
        (announced_forgetTicket (some _))
    | _ => trivial
  | @readerGranted op => cases op <;> trivial
  | flushed => exact announced_dropWriterGuard _
  | writeIoError | writeCancel => exact announced_poison.append (announced_dropWriterGuard _)
  | headerIoError | headerCancel | headerFailed =>
    exact announced_poison.append (announced_dropReaderGuard _)
  | responseIoError | responseCancel | responseFailed | responseDone | requestDecoded
  | noticeDecoded => exact announced_dropReaderGuard _
  | dropIncoming | payloadIoError | payloadCancel | payloadFailed =>
    exact (announced_poison.append (announced_dropReaderGuard _)).append (announced_forgetTicket _)
  | dropDecoded => exact ⟨fun _ => by simp, False.elim, trivial⟩
  | dropAct => exact ha.2
  | @resume next => cases next <;> trivial
  | _ => trivial

/-- A task in drop glue that will still notify the writers. -/
def OwesNotify : Pc V → Prop
  | unwinding acts _ => DropAct.notifyWriter ∈ acts
  | _ => False

/-- The ticket and the registration of a task at a `notified.await` in `acquire_writer`. -/
def parked : Pc V → Option (ℕ × ℕ)
  | acquireWriter _ t (.await seen) => some (t, seen)
  | acquireWriter _ t (.acquire (.await seen)) => some (t, seen)
  | acquireWriter _ t (.drainAcquire _ (.await seen)) => some (t, seen)
  | _ => none

/-- What a step that leaves no notification pending does not change. -/
theorem Steps.of_quiet {P : GlobalProtocol V} {sh sh' : Shared} {pc pc' : Pc V} {e : Event}
    (ha : pc.Announces) (h : pc.Steps P sh e sh' pc')
    (hcalls : sh'.writer.notifyCalls = sh.writer.notifyCalls) (howes : ¬ pc'.OwesNotify) :
    ¬ pc.OwesNotify ∧ sh'.poisoned = sh.poisoned ∧
      sh'.writer.currentServing = sh.writer.currentServing ∧
      sh'.autoFailures ⊆ sh.autoFailures := by
  cases h with
  | acquireWriter hwait => cases hwait with
    | drainHit => exact ⟨id, rfl, rfl, Finset.erase_subset _ _⟩
    | _ => exact ⟨id, rfl, rfl, subset_rfl⟩
  | @dropAct act acts next =>
    obtain ⟨hact, -⟩ := ha
    cases act with
    | storePoison | advanceWriter | insertAutoFailure => exact absurd (hact trivial) howes
    | notifyWriter => exact absurd hcalls (Nat.succ_ne_self _)
    | notifyReader | advanceReader | forgetTicket =>
      exact ⟨fun ho => howes (List.mem_of_ne_of_mem (by simp) ho), rfl, rfl, subset_rfl⟩
  | resume => exact ⟨List.not_mem_nil, rfl, rfl, subset_rfl⟩
  | _ => exact ⟨id, rfl, rfl, subset_rfl⟩

/-- `notify_waiters` calls are counted, and never taken back. -/
theorem Steps.notifyCalls_le {P : GlobalProtocol V} {sh sh' : Shared} {pc pc' : Pc V} {e : Event}
    (h : pc.Steps P sh e sh' pc') : sh.writer.notifyCalls ≤ sh'.writer.notifyCalls := by
  cases h with
  | acquireWriter hwait => cases hwait <;> exact le_rfl
  | @dropAct act => cases act with
    | notifyWriter => exact Nat.le_succ _
    | _ => exact le_rfl
  | _ => exact le_rfl

end Pc

end Conversation

namespace Conversation

variable {V : Type} {P : GlobalProtocol V} {s s' : Conversation V} {i seen : ℕ}

/-- No notification is pending for a future registered at `seen`: none has come since, and nobody is
about to send one. -/
def Quiet (s : Conversation V) (seen : ℕ) : Prop :=
  s.shared.writer.notifyCalls = seen ∧ ∀ i, ¬ (s.tasks i).OwesNotify

/-- Every task parked in `acquire_writer` with no notification pending for it is right to wait. -/
def RightlyParked (s : Conversation V) : Prop :=
  ∀ i t seen, (s.tasks i).parked = some (t, seen) → s.Quiet seen →
    s.shared.poisoned = false ∧ s.shared.writer.currentServing ≠ t ∧
      s.shared.writer.currentServing ∉ s.shared.autoFailures

/-- A task makes its last check before it parks, with no notification pending for it, while the
ticket being served is an automatic failure. -/
def MissesAutoFailure (s : Conversation V) : Action → Prop
  | .task i .run => ∃ op t seen, s.tasks i = .acquireWriter op t (.recheckServing seen) ∧
      s.Quiet seen ∧ s.shared.writer.currentServing ∈ s.shared.autoFailures
  | _ => False

/-- In every reachable state. -/
theorem announces (hs : (machine P).Reachable s) (i : ℕ) : (s.tasks i).Announces := by
  refine hs.invariant (I := fun s => ∀ i, (s.tasks i).Announces) (fun _ => trivial)
    (fun {s a s'} _ ha _ h => ?_) i
  cases a with
  | arrive bytes =>
    obtain rfl := Option.some.inj h
    exact ha
  | task i e =>
    obtain ⟨pc', hst, htasks⟩ := step_task h
    exact (forall_tasks htasks).mpr ⟨hst.announces (ha i), fun j _ => ha j⟩

/-- A step after which nothing is pending for an old registration has changed nothing that matters
to its owner, and nothing was pending before. -/
theorem quiet_of_step {a : Action} (hs : (machine P).Reachable s) (h : s.step P a = some s')
    (hle : seen ≤ s.shared.writer.notifyCalls) (hq : s'.Quiet seen) :
    s.Quiet seen ∧ s'.shared.poisoned = s.shared.poisoned ∧
      s'.shared.writer.currentServing = s.shared.writer.currentServing ∧
      s'.shared.autoFailures ⊆ s.shared.autoFailures := by
  obtain ⟨hcalls, howes⟩ := hq
  cases a with
  | arrive bytes =>
    obtain rfl := Option.some.inj h
    exact ⟨⟨hcalls, howes⟩, rfl, rfl, subset_rfl⟩
  | task i e =>
    obtain ⟨pc', hst, htasks⟩ := step_task h
    obtain ⟨hpc', hother⟩ := (forall_tasks (Q := fun pc => ¬ pc.OwesNotify) htasks).mp howes
    have heq : s'.shared.writer.notifyCalls = s.shared.writer.notifyCalls :=
      le_antisymm (hcalls ▸ hle) hst.notifyCalls_le
    obtain ⟨hpc, hrest⟩ := hst.of_quiet (announces hs i) heq hpc'
    refine ⟨⟨heq ▸ hcalls, fun j => ?_⟩, hrest⟩
    by_cases hj : j = i
    · exact hj ▸ hpc
    · exact hother j hj

/-- The same for a step of the conversation. -/
theorem notifyCalls_le {a : Action} (h : s.step P a = some s') :
    s.shared.writer.notifyCalls ≤ s'.shared.writer.notifyCalls := by
  cases a with
  | arrive bytes =>
    obtain rfl := Option.some.inj h
    exact le_rfl
  | task i e =>
    obtain ⟨pc', hst, -⟩ := step_task h
    exact hst.notifyCalls_le

/-! ## What the checks establish

Behind its registration a task loads the poison flag and the counter once more, and with nothing
pending, what it has found stays true. Of the automatic failures nothing is known: they are
looked at before the registration only. -/

/-- What the checks after the registration have established, as long as no notification is
pending. -/
def Checked (s : Conversation V) : Pc V → Prop
  | .acquireWriter _ _ (.checkPoison seen) => seen ≤ s.shared.writer.notifyCalls
  | .acquireWriter _ _ (.recheckServing seen) =>
    seen ≤ s.shared.writer.notifyCalls ∧ (s.Quiet seen → s.shared.poisoned = false)
  | .acquireWriter _ t (.await seen) =>
    seen ≤ s.shared.writer.notifyCalls ∧
      (s.Quiet seen → s.shared.poisoned = false ∧ s.shared.writer.currentServing ≠ t)
  | _ => True

/-- What has been established lasts. -/
theorem Checked.of_step {a : Action} (hs : (machine P).Reachable s) (h : s.step P a = some s')
    {pc : Pc V} (hc : s.Checked pc) : s'.Checked pc := by
  cases pc with
  | acquireWriter op t wait => cases wait with
    | checkPoison seen => exact le_trans hc (notifyCalls_le h)
    | recheckServing seen =>
      refine ⟨hc.1.trans (notifyCalls_le h), fun hq => ?_⟩
      obtain ⟨hq, hp, -⟩ := quiet_of_step hs h hc.1 hq
      rw [hp]
      exact hc.2 hq
    | await seen =>
      refine ⟨hc.1.trans (notifyCalls_le h), fun hq => ?_⟩
      obtain ⟨hq, hp, hserving, -⟩ := quiet_of_step hs h hc.1 hq
      rw [hp, hserving]
      exact hc.2 hq
    | _ => trivial
  | _ => trivial

/-- The task that takes the step establishes what its new place claims. -/
theorem Checked.of_own_step {e : Event} {pc' : Pc V} (hs : (machine P).Reachable s)
    (h : s.step P (.task i e) = some s') (hst : (s.tasks i).Steps P s.shared e s'.shared pc')
    (hc : s.Checked (s.tasks i)) : s'.Checked pc' := by
  generalize s.tasks i = pc at hc hst
  generalize hsh : s'.shared = sh' at hst
  cases hst with
  | acquireWriter hwait => cases hwait with
    | register => exact hsh ▸ le_rfl
    | notRefused hpoison => exact ⟨hsh ▸ hc, fun _ => hsh ▸ hpoison⟩
    | park hserving =>
      refine ⟨hsh ▸ hc.1, fun hq => ⟨?_, hsh ▸ hserving⟩⟩
      obtain ⟨hq, hp, -⟩ := quiet_of_step hs h hc.1 hq
      rw [hp]
      exact hc.2 hq
    | _ => trivial
  | @readerGranted op => cases op <;> trivial
  | @resume next => cases next <;> trivial
  | _ => trivial

/-- The two checks between the registration and parking, in every reachable state. -/
theorem checked (hs : (machine P).Reachable s) (i : ℕ) : s.Checked (s.tasks i) := by
  refine hs.invariant (I := fun s => ∀ i, s.Checked (s.tasks i)) (fun _ => trivial)
    (fun {s a s'} hs hc _ h => ?_) i
  cases a with
  | arrive bytes =>
    obtain rfl := Option.some.inj h
    exact hc
  | task i e =>
    obtain ⟨pc', hst, htasks⟩ := step_task h
    exact (forall_tasks htasks).mpr
      ⟨.of_own_step hs h hst (hc i), fun j _ => (hc j).of_step (a := .task i e) hs h⟩

/-! ## Parking

A task parks rightly unless an automatic failure is next, and this can be so only by an insertion
in a certain window. Which step misses it can be said of the state before the step. -/

/-- The inner `acquire` of `acquire_writer` never waits, so a parked task is at the outer wait. -/
theorem eq_of_parked (hs : (machine P).Reachable s) {t : ℕ}
    (h : (s.tasks i).parked = some (t, seen)) :
    ∃ op, s.tasks i = .acquireWriter op t (.await seen) := by
  have hk := keepsTurn hs i
  generalize s.tasks i = pc at h hk
  cases pc with
  | acquireWriter op u wait => cases wait with
    | await seen' =>
      simp only [Pc.parked, Option.some.injEq, Prod.mk.injEq] at h
      obtain ⟨rfl, rfl⟩ := h
      exact ⟨op, rfl⟩
    | acquire acq => cases acq with
      | await seen' => cases hk.2
      | _ => cases h
    | drainAcquire c acq => cases acq with
      | await seen' => cases hk.2
      | _ => cases h
    | _ => cases h
  | _ => cases h

/-- A step by which a task comes to be parked is its last check, and changes nothing. -/
theorem Pc.Steps.of_await {sh sh' : Shared} {pc : Pc V} {e : Event} {op : WriteOp} {t : ℕ}
    (h : pc.Steps P sh e sh' (.acquireWriter op t (.await seen))) :
    e = .run ∧ pc = .acquireWriter op t (.recheckServing seen) ∧ sh' = sh := by
  generalize hpc' : Pc.acquireWriter op t (.await seen) = pc' at h
  cases h with
  | acquireWriter hwait =>
    cases hwait <;> cases hpc'
    exact ⟨rfl, rfl, rfl⟩
  | @readerGranted op => cases op <;> cases hpc'
  | @resume next => cases next <;> cases hpc'
  | _ => cases hpc'

/-- A task that misses an automatic failure is parked wrongly. -/
theorem not_rightlyParked_of_misses {a : Action} (hs : (machine P).Reachable s)
    (hm : s.MissesAutoFailure a) (h : s.step P a = some s') : ¬ RightlyParked s' := by
  match a, hm with
  | .task i .run, ⟨op, t, seen, hpc, ⟨hcalls, howes⟩, hmem⟩ =>
    obtain ⟨pc', hst, htasks⟩ := step_task h
    rw [hpc] at hst
    generalize hsh : s'.shared = sh' at hst
    cases hst with
    | acquireWriter hwait => cases hwait with
      | servingNow hserving =>
        -- its own ticket is not in the failure set
        have hown : (s.writerHand i).slot .own = some t := by
          rw [Hand.slot, writerHand, hpc]; rfl
        exact absurd (hserving ▸ hmem) ((ticketInv hs).writer.not_pool hown)
      | park hserving =>
        intro hright
        have hpark : (s'.tasks i).parked = some (t, seen) := by simp [htasks, Pc.parked]
        refine (hright i t seen hpark ⟨hsh ▸ hcalls, ?_⟩).2.2 (hsh ▸ hmem)
        exact (forall_tasks (Q := fun pc => ¬ pc.OwesNotify) htasks).mpr
          ⟨id, fun j _ => howes j⟩

/-- Every other step keeps the tasks rightly parked. -/
theorem RightlyParked.step {a : Action} (hs : (machine P).Reachable s) (hright : RightlyParked s)
    (hok : ¬ s.MissesAutoFailure a) (h : s.step P a = some s') : RightlyParked s' := by
  intro i t seen hpark hq
  have hs' : (machine P).Reachable s' := .step hs trivial h
  obtain ⟨op, hpc'⟩ := eq_of_parked hs' hpark
  have hc := checked hs' i
  rw [hpc'] at hc
  refine ⟨(hc.2 hq).1, (hc.2 hq).2, ?_⟩
  -- it was parked before, or it parks now
  by_cases hold : s.tasks i = .acquireWriter op t (.await seen)
  · have hc' := checked hs i
    rw [hold] at hc'
    obtain ⟨hq', -, hserving, hsub⟩ := quiet_of_step hs h hc'.1 hq
    rw [hserving]
    exact fun hmem => (hright i t seen (by rw [hold]; rfl) hq').2.2 (hsub hmem)
  · cases a with
    | arrive bytes =>
      obtain rfl := Option.some.inj h
      exact absurd hpc' hold
    | task j e =>
      obtain ⟨pc', hst, htasks⟩ := step_task h
      have hj : i = j := by
        by_contra hne
        rw [htasks, Function.update_of_ne hne] at hpc'
        exact hold hpc'
      subst hj
      rw [htasks, Function.update_self] at hpc'
      subst hpc'
      obtain ⟨rfl, hpc, hsh⟩ := hst.of_await
      have hc' := checked hs i
      rw [hpc] at hc'
      obtain ⟨hq', -⟩ := quiet_of_step hs h hc'.1 hq
      rw [hsh]
      exact fun hmem => hok ⟨op, t, seen, hpc, hq', hmem⟩

/-- **No task parks wrongly exactly as long as none misses an automatic failure.** -/
theorem rightlyParked_iff {l : List (Conversation V × Action)} (h : (machine P).Path l s) :
    ((∀ x ∈ l, RightlyParked x.1) ∧ RightlyParked s) ↔ ∀ x ∈ l, ¬ x.1.MissesAutoFailure x.2 :=
  h.forall_iff (fun _ _ _ hpark => by cases hpark) fun hs hright hst =>
    ⟨fun hright' hm => not_rightlyParked_of_misses hs.reachable hm hst hright',
      fun hok => hright.step hs.reachable hok hst⟩

/-- The first task accepts a request and gets writer ticket `0` for the reply; the second looks for
an automatic failure with ticket `0`; then the first drops the request, which makes it one and
announces it; then the second registers and makes its checks. -/
def missedFailureRun : List Action :=
  .arrive (ControlMessage.globalRequest ⟨"", []⟩ true).encode ::
    .task 0 .acceptGlobalRequest :: List.replicate 8 (.task 0 .run) ++
    .task 0 .decodePayload :: List.replicate 4 (.task 0 .run) ++
    .task 1 (.sendGlobalNotification ⟨"", []⟩) :: List.replicate 2 (.task 1 .run) ++
    .task 0 .drop :: List.replicate 3 (.task 0 .run) ++
    List.replicate 3 (.task 1 .run)

/-- The second task makes its last check, with nothing announced since its second, while the ticket
being served is an automatic failure. -/
def secondTaskMisses (s : Conversation V) : Bool :=
  match s.tasks 0, s.tasks 1 with
  | .finished _, .acquireWriter _ _ (.recheckServing seen) =>
    decide (s.shared.writer.notifyCalls = seen ∧
      s.shared.writer.currentServing ∈ s.shared.autoFailures)
  | _, _ => false

/-- With its next operation the second task parks, while it is the one that should write the
automatic failure. -/
theorem missedFailureRun_not_rightlyParked :
    ∃ s, (machine .empty).exec initial (missedFailureRun ++ [.task 1 .run]) = some s ∧
      ¬ RightlyParked s := by
  obtain ⟨s, s', hs, htest, hst, hexec⟩ := Machine.exists_exec_snoc (M := machine .empty)
    missedFailureRun (.task 1 .run) (p := secondTaskMisses) (by decide)
  refine ⟨s', hexec, not_rightlyParked_of_misses (a := .task 1 .run)
    (Machine.reach_of_exec .init hs) ?_ hst⟩
  have hidle : ∀ i, 2 ≤ i → s.tasks i = .idle := fun i =>
    tasks_of_exec hs (by decide)
  rw [secondTaskMisses] at htest
  split at htest
  case h_1 o op t seen h₀ h₁ =>
    obtain ⟨hcalls, hmem⟩ := of_decide_eq_true htest
    refine ⟨op, t, seen, h₁, ⟨hcalls, fun i => ?_⟩, hmem⟩
    rcases i with _ | _ | i
    · rw [h₀]
      exact id
    · rw [h₁]
      exact id
    · rw [hidle (i + 2) (by omega)]
      exact id
  case h_2 => cases htest

/-- Along this run, somebody parks wrongly, and somebody misses a failure. -/
theorem missedFailureRun_rightlyParked_iff :
    ∃ s, (machine .empty).exec initial missedFailureRun = some s ∧
      (((∀ x ∈ (machine .empty).trace initial missedFailureRun, RightlyParked x.1) ∧
        RightlyParked s) ↔
        ∀ x ∈ (machine .empty).trace initial missedFailureRun, ¬ x.1.MissesAutoFailure x.2) := by
  obtain ⟨s, hexec⟩ := Option.isSome_iff_exists.mp
    (show ((machine .empty).exec initial missedFailureRun).isSome = true by decide)
  exact ⟨s, hexec, rightlyParked_iff (.of_exec hexec)⟩

end Conversation

end Dssh
