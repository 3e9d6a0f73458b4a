import Dssh.Conversation.Inversion

/-!
# Tickets and guards

The reader and the writer of a conversation are ticket queues in the sense of `TicketQueue`.
This module says which tickets and guards a task holds at each of its places, shows that every
atomic operation is a step of both queues, and reads off exclusivity.

On the writer queue a task may hold an own ticket, a ticket adopted from the automatic failures,
and a guard: a task that drains holds the guard of a foreign ticket while it keeps its own. The
pool of the writer queue is the set of automatic failures. The reader queue has no pool.

## What is at stake

`OrderedGuard` gives out `&mut` to what is in an `UnsafeCell`, and the comments in the source
say why this is sound: the ticket mechanism guarantees exclusive access. Nothing in the types
does. Tickets are plain numbers, `acquire` takes any number, and a guard is made for whoever
passes the comparison with the counter. If two tasks ever held guards of one resource, this
would be undefined behaviour, not just a garbled stream. `exclusive` is the property that the
comments rely on, for every schedule, every cancellation and every I/O error.

## The refinement

What a task holds is a function of its place (`Pc.writerTickets`, `Pc.writerGuards` and so on),
read off the locals. Then each constructor of `Pc.Steps` is matched with a step of the queue, or
with the loss of some tickets. This is the only proof in the module that goes through all
places; the queue's invariants do the rest.

That a task holds at most one of each is plain from its place, except in drop glue, which is a
list and could have anything in it. `Pc.Single` says it, and is an invariant of its own.

## Loss

Tickets are lost in three ways. A task whose future is dropped inside of `acquire_writer` takes
its ticket with it. One that is refused because the session is poisoned does not need it any
more. And drop glue may forget one, which it does only behind the poisoning of the session
(`forgetsPoisoned`). As long as the session is not poisoned, only the first of these happens,
and it blocks the writer for ever: nobody can advance the counter past a ticket that nobody has.
`ticketsOwned_iff` makes this exact.

## Main definitions

* `Pc.writerHand`, `Pc.readerHand` — what a task holds
* `Conversation.TicketInv` — the invariants of both queues
* `Conversation.Exclusive` — exclusivity of one resource
* `Conversation.TicketsOwned`, `Conversation.CancelsWaitingWriter` — no writer ticket is lost,
  and how one is

## Main results

* `Pc.Steps.writer`, `Pc.Steps.reader` — every atomic operation is a queue step, or loses unused
  tickets
* `Conversation.ticketInv` — the invariants of both queues in every reachable state
* `Conversation.exclusive` — exclusivity of both guards
* `Conversation.ticketsOwned_iff` — no writer ticket is lost exactly as long as no future is
  cancelled inside `acquire_writer`
-/

namespace Dssh

open TicketQueue

namespace Conversation

variable {V : Type}

/-! ## What a task holds

Read off its place: the tickets it has taken and not used, one that it has taken out of the set
of automatic failures, and its guards. A hand in the sense of the library has one slot for each
kind; that a task never has two tickets of a kind is a property of places. -/

/-- The unused writer ticket an operation of drop glue disposes of. -/
def DropAct.writerTicket : DropAct → Option ℕ
  | insertAutoFailure t => some t
  | forgetTicket t => some t
  | _ => none

/-- The writer guard an operation of drop glue releases. -/
def DropAct.writerGuard : DropAct → Option ℕ
  | advanceWriter t => some t
  | _ => none

/-- The reader guard an operation of drop glue releases. -/
def DropAct.readerGuard : DropAct → Option ℕ
  | advanceReader t => some t
  | _ => none

/-- The reader ticket a writing operation holds for its response. -/
def WriteOp.readerTicket : WriteOp → Option ℕ
  | request _ r => some r
  | notification _ => none
  | respond _ => none

/-- The unused writer ticket a task keeps while it runs drop glue. -/
def After.writerTicket : After V → Option ℕ
  | finish _ => none
  | drain _ t => some t
  | response _ _ _ => none
  | decoded _ w _ => some w

/-- The unused reader ticket a task keeps while it runs drop glue. -/
def After.readerTicket : After V → Option ℕ
  | finish _ => none
  | drain op _ => op.readerTicket
  | response _ _ r => some r
  | decoded _ _ _ => none

namespace Pc

/-- The writer tickets a task owns and has not used. -/
def writerTickets : Pc V → List ℕ
  | pairReader _ w => [w]
  | pairUnlock _ w _ => [w]
  | acquireWriter _ t _ => [t]
  | incoming _ _ w _ => w.toList
  | readingPayload _ _ w _ _ => w.toList
  | decoded _ w _ => [w]
  | unwinding acts next => acts.filterMap DropAct.writerTicket ++ next.writerTicket.toList
  | _ => []

/-- The automatic failure a task has taken out of the set and not yet started to write. -/
def adoptedTicket : Pc V → Option ℕ
  | acquireWriter _ _ (.drainAcquire current _) => some current
  | _ => none

/-- The tickets of the live writer guards of a task. -/
def writerGuards : Pc V → List ℕ
  | acquireWriter _ _ (.drainWrite current _) => [current]
  | writing _ t _ => [t]
  | unwinding acts _ => acts.filterMap DropAct.writerGuard
  | _ => []

/-- The reader tickets a task owns and has not used. -/
def readerTickets : Pc V → List ℕ
  | pairUnlock _ _ r => [r]
  | acquireWriter op _ _ => op.readerTicket.toList
  | writing op _ _ => op.readerTicket.toList
  | acquireReader _ t _ => [t]
  | unwinding _ next => next.readerTicket.toList
  | _ => []

/-- The tickets of the live reader guards of a task. -/
def readerGuards : Pc V → List ℕ
  | readingHeader t _ _ => [t]
  | readingResponse _ _ t _ _ => [t]
  | incoming _ t _ _ => [t]
  | readingPayload _ t _ _ _ => [t]
  | unwinding acts _ => acts.filterMap DropAct.readerGuard
  | _ => []

/-- A task holds at most one ticket or guard of each kind. Where it is in the code this is plain
except in drop glue, which is a list. -/
structure Single (pc : Pc V) : Prop where
  /-- One unused ticket of the writer. -/
  writerTickets : pc.writerTickets.length ≤ 1
  /-- One guard of the writer. -/
  writerGuards : pc.writerGuards.length ≤ 1
  /-- One unused ticket of the reader. -/
  readerTickets : pc.readerTickets.length ≤ 1
  /-- One guard of the reader. -/
  readerGuards : pc.readerGuards.length ≤ 1

/-- What a task holds of the writer queue. -/
def writerHand (pc : Pc V) : Hand where
  own := pc.writerTickets.head?
  adopted := pc.adoptedTicket
  guard := pc.writerGuards.head?

/-- What a task holds of the reader queue. -/
def readerHand (pc : Pc V) : Hand where
  own := pc.readerTickets.head?
  guard := pc.readerGuards.head?

@[simp] theorem readerGuards_reading (P : GlobalProtocol V) (op : ReadOp) (t : ℕ) :
    (op.reading P t).readerGuards = [t] := by cases op <;> rfl

@[simp] theorem readerTickets_reading (P : GlobalProtocol V) (op : ReadOp) (t : ℕ) :
    (op.reading P t).readerTickets = [] := by cases op <;> rfl

@[simp] theorem writerTickets_reading (P : GlobalProtocol V) (op : ReadOp) (t : ℕ) :
    (op.reading P t).writerTickets = [] := by cases op <;> rfl

@[simp] theorem writerGuards_reading (P : GlobalProtocol V) (op : ReadOp) (t : ℕ) :
    (op.reading P t).writerGuards = [] := by cases op <;> rfl

@[simp] theorem writerTickets_resume (next : After V) :
    next.resume.writerTickets = next.writerTicket.toList := by cases next <;> rfl

@[simp] theorem readerTickets_resume (next : After V) :
    next.resume.readerTickets = next.readerTicket.toList := by cases next <;> rfl

@[simp] theorem writerGuards_resume (next : After V) : next.resume.writerGuards = [] := by
  cases next <;> rfl

@[simp] theorem readerGuards_resume (next : After V) : next.resume.readerGuards = [] := by
  cases next <;> rfl

end Pc

/-- The shared part of the writer queue. -/
def Shared.writerCounters (sh : Shared) : Counters :=
  ⟨sh.writer.nextTicket, sh.writer.currentServing, sh.autoFailures, sh.writer.granted,
    sh.writer.released⟩

/-- The shared part of the reader queue. -/
def Shared.readerCounters (sh : Shared) : Counters :=
  ⟨sh.reader.nextTicket, sh.reader.currentServing, ∅, sh.reader.granted, sh.reader.released⟩

/-! ## Drop glue

Only drop glue is a list of operations, in which two guards could occur. It does not come to
this. -/

/-- A step leaves a task with at most one ticket or guard of each kind. -/
theorem Pc.Steps.single {P : GlobalProtocol V} {sh sh' : Shared} {pc pc' : Pc V} {e : Event}
    (hs : pc.Single) (h : pc.Steps P sh e sh' pc') : pc'.Single := by
  obtain ⟨h₁, h₂, h₃, h₄⟩ := hs
  cases h with
  | acquireWriter hwait =>
    cases hwait <;> constructor <;>
      first | exact Nat.zero_le 1 | exact Nat.le_refl 1 | exact h₃
  | @flushed op => cases op <;> exact ⟨Nat.zero_le 1, h₂, h₃, Nat.zero_le 1⟩
  | readerGranted => constructor <;> simp
  | @dropAct act acts next =>
    have hsub : acts.Sublist (act :: acts) := List.sublist_cons_self act acts
    refine ⟨?_, (hsub.filterMap _).length_le.trans h₂, h₃, (hsub.filterMap _).length_le.trans h₄⟩
    exact ((hsub.filterMap _).append_right _).length_le.trans h₁
  | resume => constructor <;> simp
  | @dropIncoming _ _ w | @payloadIoError _ _ w | @payloadCancel _ _ w | @payloadFailed _ _ w =>
    cases w <;> exact ⟨h₁, Nat.zero_le 1, Nat.zero_le 1, Nat.le_refl 1⟩
  | _ =>
    constructor <;> first | exact Nat.zero_le 1 | exact Nat.le_refl 1 | exact h₁ | exact h₃

/-! ## Every operation is a queue step

Taking a ticket, adopting one, turning it into a guard and releasing the guard are steps of the
queue. What is left are the places where a ticket goes out of scope unused, and these are listed. -/

namespace Pc

variable {acts : List DropAct} {next : After V} {t : ℕ}

/-- Drop glue that forgets a ticket holds it until then … -/
theorem writerHand_unwinding_forget (t : ℕ) (w : Option ℕ) (o : Outcome V) :
    (unwinding (poison ++ dropReaderGuard t ++ forgetTicket w) (.finish o)).writerHand
      = { own := w.toList.head? } := by cases w <;> rfl

/-- … with the guard of the reader. -/
theorem readerHand_unwinding_forget (t : ℕ) (w : Option ℕ) (o : Outcome V) :
    (unwinding (poison ++ dropReaderGuard t ++ forgetTicket w) (.finish o)).readerHand
      = { guard := some t } := by cases w <;> rfl

/-- Releasing the writer guard is the last thing drop glue does with a guard. -/
theorem writerHand_advanceWriter (hs : (unwinding (.advanceWriter t :: acts) next).Single) :
    (unwinding acts next).writerHand
      = { (unwinding (.advanceWriter t :: acts) next).writerHand with guard := none } := by
  have hnil : acts.filterMap DropAct.writerGuard = [] :=
    List.eq_nil_of_length_eq_zero (Nat.le_zero.mp (Nat.le_of_succ_le_succ hs.writerGuards))
  rw [writerHand, writerGuards, hnil]
  rfl

/-- So is releasing the reader guard. -/
theorem readerHand_advanceReader (hs : (unwinding (.advanceReader t :: acts) next).Single) :
    (unwinding acts next).readerHand
      = { (unwinding (.advanceReader t :: acts) next).readerHand with guard := none } := by
  have hnil : acts.filterMap DropAct.readerGuard = [] :=
    List.eq_nil_of_length_eq_zero (Nat.le_zero.mp (Nat.le_of_succ_le_succ hs.readerGuards))
  rw [readerHand, readerGuards, hnil]
  rfl

/-- Behind an automatic failure the ticket is in the set. -/
theorem writerHand_insertAutoFailure
    (hs : (unwinding (.insertAutoFailure t :: acts) next).Single) :
    (unwinding acts next).writerHand
      = { (unwinding (.insertAutoFailure t :: acts) next).writerHand with own := none } := by
  have hnil : (unwinding acts next).writerTickets = [] :=
    List.eq_nil_of_length_eq_zero (Nat.le_zero.mp (Nat.le_of_succ_le_succ hs.writerTickets))
  rw [writerHand, hnil]
  rfl

/-- Behind this, it is nowhere. -/
theorem writerHand_forgetTicket (hs : (unwinding (.forgetTicket t :: acts) next).Single) :
    (unwinding acts next).writerHand
      = { (unwinding (.forgetTicket t :: acts) next).writerHand with own := none } := by
  have hnil : (unwinding acts next).writerTickets = [] :=
    List.eq_nil_of_length_eq_zero (Nat.le_zero.mp (Nat.le_of_succ_le_succ hs.writerTickets))
  rw [writerHand, hnil]
  rfl

end Pc

/-- Where a ticket of the writer queue can be lost: by cancelling a future inside `acquire_writer`,
by being refused on a poisoned session, and by drop glue that says so. -/
inductive Pc.MayLose (sh : Shared) : Pc V → Event → Prop
  /-- The future is dropped. -/
  | cancelled {op : WriteOp} {t : ℕ} {wait : WriterWait} :
      MayLose sh (.acquireWriter op t wait) .cancel
  /-- The session is poisoned. -/
  | refused {pc : Pc V} {e : Event} (hpoison : sh.poisoned = true) : MayLose sh pc e
  /-- Drop glue forgets it. -/
  | forgotten {t : ℕ} {acts : List DropAct} {next : After V} :
      MayLose sh (.unwinding (.forgetTicket t :: acts) next) .run

/-- **Refinement, writer.** An atomic operation of a task is a step of the writer queue, or leaves
its counters alone and loses unused tickets. -/
theorem Pc.Steps.writer {P : GlobalProtocol V} {sh sh' : Shared} {pc pc' : Pc V} {e : Event}
    (hs : pc.Single) (h : pc.Steps P sh e sh' pc') :
    HandStep sh.writerCounters pc.writerHand sh'.writerCounters pc'.writerHand ∨
      sh'.writerCounters = sh.writerCounters ∧ pc.writerHand.Loses pc'.writerHand ∧
        pc.MayLose sh e := by
  cases h with
  | sendGlobalNotification => exact Or.inl (.take rfl)
  | pairWriter => exact Or.inl (.take rfl)
  | requestAccepted => exact Or.inl (.take rfl)
  | acquireWriter hwait =>
    cases hwait with
    | drainHit hmem => exact Or.inl (.adopt hmem rfl)
    | drainGranted hserving => subst hserving; exact Or.inl (.grantAdopted rfl rfl)
    | acquireGranted hserving => subst hserving; exact Or.inl (.grantOwn rfl rfl)
    | drainRefused hpoison =>
      exact Or.inr ⟨rfl, ⟨Or.inl rfl, Or.inl rfl, rfl⟩, .refused hpoison⟩
    | refused hpoison => exact Or.inr ⟨rfl, ⟨Or.inl rfl, Or.inl rfl, rfl⟩, .refused hpoison⟩
    | acquireRefused hpoison =>
      exact Or.inr ⟨rfl, ⟨Or.inl rfl, Or.inl rfl, rfl⟩, .refused hpoison⟩
    | drainCancel => exact Or.inr ⟨rfl, ⟨Or.inl rfl, Or.inl rfl, rfl⟩, .cancelled⟩
    | drainWriteCancel => exact Or.inr ⟨rfl, ⟨Or.inl rfl, Or.inl rfl, rfl⟩, .cancelled⟩
    | cancel => exact Or.inr ⟨rfl, ⟨Or.inl rfl, Or.inl rfl, rfl⟩, .cancelled⟩
    | acquireCancel => exact Or.inr ⟨rfl, ⟨Or.inl rfl, Or.inl rfl, rfl⟩, .cancelled⟩
    | _ => exact Or.inl .stay
  | @readerGranted op t => cases op <;> exact Or.inl .stay
  | dropIncoming | payloadIoError | payloadCancel | payloadFailed =>
    exact Or.inl (by rw [Pc.writerHand_unwinding_forget]; exact .stay)
  | @flushed op t => cases op <;> exact Or.inl .stay
  | @resume next => cases next <;> exact Or.inl .stay
  | @dropAct act acts next => cases act with
    | advanceWriter t =>
      refine Or.inl ?_
      rw [Pc.writerHand_advanceWriter hs]
      exact .release rfl
    | insertAutoFailure t =>
      refine Or.inl ?_
      rw [Pc.writerHand_insertAutoFailure hs]
      exact .putDown rfl
    | forgetTicket t =>
      refine Or.inr ⟨rfl, ?_, .forgotten⟩
      rw [Pc.writerHand_forgetTicket hs]
      exact ⟨Or.inl rfl, Or.inl rfl, rfl⟩
    | storePoison | notifyReader | notifyWriter | advanceReader => exact Or.inl .stay
  | _ => exact Or.inl .stay

/-- **Refinement, reader.** An atomic operation of a task is a step of the reader queue, or leaves
its counters alone and loses unused tickets. -/
theorem Pc.Steps.reader {P : GlobalProtocol V} {sh sh' : Shared} {pc pc' : Pc V} {e : Event}
    (hs : pc.Single) (h : pc.Steps P sh e sh' pc') :
    HandStep sh.readerCounters pc.readerHand sh'.readerCounters pc'.readerHand ∨
      sh'.readerCounters = sh.readerCounters ∧ pc.readerHand.Loses pc'.readerHand := by
  cases h with
  | acceptGlobalRequest => exact Or.inl (.take rfl)
  | pairReader => exact Or.inl (.take rfl)
  | @readerGranted op t seen hserving =>
    subst hserving
    cases op <;> exact Or.inl (.grantOwn rfl rfl)
  | readerRefused => exact Or.inr ⟨rfl, Or.inl rfl, Or.inl rfl, rfl⟩
  | readerCancel => exact Or.inr ⟨rfl, Or.inl rfl, Or.inl rfl, rfl⟩
  | writeIoError => exact Or.inr ⟨rfl, Or.inl rfl, Or.inl rfl, rfl⟩
  | writeCancel => exact Or.inr ⟨rfl, Or.inl rfl, Or.inl rfl, rfl⟩
  | acquireWriter hwait =>
    cases hwait with
    | drainRefused | refused | acquireRefused | drainCancel | cancel | acquireCancel
    | drainIoError | drainWriteCancel => exact Or.inr ⟨rfl, Or.inl rfl, Or.inl rfl, rfl⟩
    | _ => exact Or.inl .stay
  | dropIncoming | payloadIoError | payloadCancel | payloadFailed =>
    exact Or.inl (by rw [Pc.readerHand_unwinding_forget]; exact .stay)
  | @flushed op t => cases op <;> exact Or.inl .stay
  | @resume next => cases next <;> exact Or.inl .stay
  | @dropAct act acts next => cases act with
    | advanceReader t =>
      refine Or.inl ?_
      rw [Pc.readerHand_advanceReader hs]
      exact .release rfl
    | storePoison | notifyReader | notifyWriter | advanceWriter | insertAutoFailure
    | forgetTicket => exact Or.inl .stay
  | _ => exact Or.inl .stay

/-! ## Poisoning and forgotten tickets

A ticket that drop glue forgets would stop the queue, if the session were not poisoned before.
Every drop glue of the source has this order. A future that is dropped while it waits in
`acquire_writer` has no glue for its ticket at all. -/

/-- Poisoning is for ever. -/
theorem Pc.Steps.poisoned {P : GlobalProtocol V} {sh sh' : Shared} {pc pc' : Pc V} {e : Event}
    (h : pc.Steps P sh e sh' pc') (hp : sh.poisoned = true) : sh'.poisoned = true := by
  cases h with
  | acquireWriter hwait => cases hwait <;> exact hp
  | @dropAct act => cases act with
    | storePoison => rfl
    | _ => exact hp
  | _ => exact hp

/-- Drop glue forgets a ticket only after it has poisoned the session, if the session was not
poisoned before. -/
def forgetsPoisoned : Bool → List DropAct → Prop
  | _, [] => True
  | _, .storePoison :: acts => forgetsPoisoned true acts
  | p, .forgetTicket _ :: acts => p = true ∧ forgetsPoisoned p acts
  | p, _ :: acts => forgetsPoisoned p acts

/-- A session that is poisoned stays so. -/
theorem forgetsPoisoned.mono {p q : Bool} (hpq : p = true → q = true) {acts : List DropAct}
    (h : forgetsPoisoned p acts) : forgetsPoisoned q acts := by
  induction acts generalizing p q with
  | nil => trivial
  | cons act acts ih => cases act with
    | storePoison => exact ih id h
    | forgetTicket t => exact ⟨hpq h.1, ih hpq h.2⟩
    | _ => exact ih hpq h

/-- The same of the drop glue a task is in. -/
def Pc.ForgetsPoisoned (poisoned : Bool) : Pc V → Prop
  | unwinding acts _ => forgetsPoisoned poisoned acts
  | _ => True

/-- The same of a task. -/
theorem Pc.ForgetsPoisoned.mono {p q : Bool} (hpq : p = true → q = true) {pc : Pc V}
    (h : pc.ForgetsPoisoned p) : pc.ForgetsPoisoned q := by
  cases pc with
  | unwinding acts next => exact forgetsPoisoned.mono hpq h
  | _ => trivial

/-- Every drop glue of the code does so. -/
theorem Pc.Steps.forgetsPoisoned {P : GlobalProtocol V} {sh sh' : Shared} {pc pc' : Pc V}
    {e : Event} (hf : pc.ForgetsPoisoned sh.poisoned) (h : pc.Steps P sh e sh' pc') :
    pc'.ForgetsPoisoned sh'.poisoned := by
  cases h with
  | acquireWriter hwait => cases hwait with
    | drainIoError => exact ⟨rfl, trivial⟩
    | _ => trivial
  | @readerGranted op => cases op <;> trivial
  | @dropIncoming _ _ w | @payloadIoError _ _ w | @payloadCancel _ _ w | @payloadFailed _ _ w =>
    cases w with
    | none => trivial
    | some w => exact ⟨rfl, trivial⟩
  | @dropAct act => cases act with
    | forgetTicket t => exact hf.2
    | _ => exact hf
  | @resume next => cases next <;> trivial
  | _ => trivial

/-! ## Every reachable state

The two queues at once, as the library has them: counters, and one hand for each task. -/

end Conversation

namespace Conversation

variable {V : Type} {P : GlobalProtocol V} {s s' : Conversation V}

/-- What every task holds of the writer queue. -/
def writerHand (s : Conversation V) (i : ℕ) : Hand := (s.tasks i).writerHand

/-- What every task holds of the reader queue. -/
def readerHand (s : Conversation V) (i : ℕ) : Hand := (s.tasks i).readerHand

/-- The invariant of tickets and guards. -/
structure TicketInv (s : Conversation V) : Prop where
  /-- A task holds at most one of each. -/
  single : ∀ i, (s.tasks i).Single
  /-- The writer is a ticket queue … -/
  writer : TicketQueue.Inv s.shared.writerCounters s.writerHand
  /-- … and so is the reader. -/
  reader : TicketQueue.Inv s.shared.readerCounters s.readerHand

/-- A step of a task changes its hand … -/
theorem writerHand_update {i : ℕ} {pc' : Pc V} (h : s'.tasks = Function.update s.tasks i pc') :
    s'.writerHand = Function.update s.writerHand i pc'.writerHand := by
  funext j
  rw [writerHand, h]
  exact Function.apply_update (fun _ => Pc.writerHand) s.tasks i pc' j

/-- … on either queue. -/
theorem readerHand_update {i : ℕ} {pc' : Pc V} (h : s'.tasks = Function.update s.tasks i pc') :
    s'.readerHand = Function.update s.readerHand i pc'.readerHand := by
  funext j
  rw [readerHand, h]
  exact Function.apply_update (fun _ => Pc.readerHand) s.tasks i pc' j

/-- Nobody holds anything at the start. -/
theorem TicketInv.initial : TicketInv (initial : Conversation V) where
  single _ := by constructor <;> exact Nat.zero_le _
  writer := TicketQueue.Inv.init
  reader := TicketQueue.Inv.init

/-- **Every step keeps both queues in order.** -/
theorem TicketInv.step {a : Action} (hI : TicketInv s) (h : s.step P a = some s') :
    TicketInv s' := by
  cases a with
  | arrive bytes =>
    obtain rfl := Option.some.inj h
    exact ⟨hI.single, hI.writer, hI.reader⟩
  | task i e =>
    obtain ⟨pc', hst, htasks⟩ := step_task h
    refine ⟨fun j => ?_, ?_, ?_⟩
    · exact (forall_tasks htasks).mpr ⟨hst.single (hI.single i), fun j _ => hI.single j⟩ j
    · rw [writerHand_update htasks]
      rcases hst.writer (hI.single i) with hw | ⟨hc, hl, -⟩
      · exact hI.writer.step hw
      · exact hc ▸ hI.writer.lose hl
    · rw [readerHand_update htasks]
      rcases hst.reader (hI.single i) with hr | ⟨hc, hl⟩
      · exact hI.reader.step hr
      · exact hc ▸ hI.reader.lose hl

/-- The invariants hold in every reachable state. -/
theorem ticketInv (hs : (machine P).Reachable s) : TicketInv s :=
  hs.invariant .initial fun _ hI _ h => hI.step h

/-! ## Exclusivity

Read back from hands to guards. The statement lists the live guards task by task, since it is
about the program and not about the queue. -/

/-- The first task is writing its message; the second, which has ticket `1`, waits behind it. -/
def waitingRun : List Action :=
  .task 0 (.sendGlobalNotification ⟨"", []⟩) :: List.replicate 6 (.task 0 .run) ++
    .task 1 (.sendGlobalNotification ⟨"", []⟩) :: List.replicate 6 (.task 1 .run)

/-- The exclusivity of one resource, whose live guards are listed task by task. -/
structure Exclusive (oa : OrderedAccess) (guards : ℕ → List ℕ) : Prop where
  /-- No task holds two guards, … -/
  of_task : ∀ i, (guards i).length ≤ 1
  /-- … and no two tasks hold one each. -/
  of_tasks : ∀ {i j t u}, t ∈ guards i → u ∈ guards j → i = j
  /-- The live guard is for the ticket being served. -/
  serving : ∀ {i t}, t ∈ guards i → t = oa.currentServing
  /-- No ticket is granted twice. -/
  granted_nodup : oa.granted.Nodup
  /-- The guards dropped are those of the tickets before the one being served, … -/
  released_eq : oa.released = List.range oa.currentServing
  /-- … which were granted in that order, … -/
  released_prefix : oa.released <+: oa.granted
  /-- … and before any other. -/
  granted_live : ∀ {i t}, t ∈ guards i → oa.granted = oa.released ++ [t]

/-- Exclusivity from the queue invariant. -/
private theorem Exclusive.of_inv {oa : OrderedAccess} {pool : Finset ℕ} {hand : ℕ → Hand}
    {guards : ℕ → List ℕ} (hone : ∀ i, (guards i).length ≤ 1)
    (hhand : ∀ i, (hand i).guard = (guards i).head?)
    (hI : TicketQueue.Inv ⟨oa.nextTicket, oa.currentServing, pool, oa.granted, oa.released⟩ hand) :
    Exclusive oa guards := by
  have hguard : ∀ {i t}, t ∈ guards i → (hand i).guard = some t := by
    intro i t ht
    obtain ⟨u, hu⟩ := List.length_eq_one_iff.mp
      (le_antisymm (hone i) (List.length_pos_of_mem ht))
    rw [hu, List.mem_singleton] at ht
    rw [hhand, hu, ht, List.head?_cons]
  refine ⟨hone, fun hi hj => hI.guard_unique (hguard hi) (hguard hj),
    fun hi => hI.guard_serving (hguard hi), hI.granted_nodup, hI.released_eq, ?_, fun hi => ?_⟩
  · have hreleased : oa.released = List.range oa.currentServing := hI.released_eq
    rcases hI.granted_eq with h | h
    · rw [hreleased, show oa.granted = _ from h]
    · rw [hreleased, show oa.granted = _ from h, List.range_succ]
      exact List.prefix_append _ _
  · have hgranted := hI.granted_live (hguard hi)
    rw [List.range_succ] at hgranted
    rw [show oa.granted = _ from hgranted, show oa.released = _ from hI.released_eq,
      show _ = oa.currentServing from hI.guard_serving (hguard hi)]

/-- **Exclusivity.** In every reachable state, for the reader and for the writer: at most one guard
is live, it is for the ticket being served, no ticket is ever granted twice, and the guards dropped
were those of the tickets before `current_serving`, granted in that order. -/
theorem exclusive (hs : (machine P).Reachable s) :
    Exclusive s.shared.reader (fun i => (s.tasks i).readerGuards) ∧
      Exclusive s.shared.writer (fun i => (s.tasks i).writerGuards) :=
  ⟨.of_inv (fun i => ((ticketInv hs).single i).readerGuards) (fun _ => rfl) (ticketInv hs).reader,
    .of_inv (fun i => ((ticketInv hs).single i).writerGuards) (fun _ => rfl) (ticketInv hs).writer⟩

/-- One guard is live, and a task waits for it. -/
theorem waitingRun_exclusive :
    ∃ s, (machine .empty).exec initial waitingRun = some s ∧ 0 ∈ (s.tasks 0).writerGuards ∧
      Exclusive s.shared.reader (fun i => (s.tasks i).readerGuards) ∧
        Exclusive s.shared.writer (fun i => (s.tasks i).writerGuards) := by
  obtain ⟨s, hexec, hguard⟩ := (Option.any_eq_true
    (fun s : Conversation Unit => decide (0 ∈ (s.tasks 0).writerGuards))
    ((machine .empty).exec initial waitingRun)).mp (by decide)
  exact ⟨s, hexec, of_decide_eq_true hguard, exclusive (Machine.reach_of_exec .init hexec)⟩

/-! ## Keeping one's turn

A task inside `acquire_writer` loads `current_serving`, finds its ticket, and acts on it a few
operations later. Nobody moves the counter in between, because only the guard of the ticket being
served does this. -/

/-- What a task inside `acquire_writer` has learned of `current_serving` stays true while it counts
on it. In particular the inner `acquire` never waits. -/
def Pc.KeepsTurn (serving : ℕ) : Pc V → Prop
  | acquireWriter _ _ (.drainRemove current) => current ≤ serving
  | acquireWriter _ _ (.drainAcquire current acq) => current = serving ∧ acq.isAwait = false
  | acquireWriter _ t (.acquire acq) => t = serving ∧ acq.isAwait = false
  | _ => True

/-- A step of a task keeps what it counts on. -/
theorem Pc.Steps.keepsTurn {pc pc' : Pc V} {sh sh' : Shared} {e : Event}
    (hpool : ∀ t ∈ sh.autoFailures, sh.writer.currentServing ≤ t)
    (hk : pc.KeepsTurn sh.writer.currentServing) (h : pc.Steps P sh e sh' pc') :
    pc'.KeepsTurn sh'.writer.currentServing := by
  cases h with
  | acquireWriter hwait => cases hwait with
    | drainLoad => exact le_rfl
    | drainHit hmem => exact ⟨le_antisymm hk (hpool _ hmem), rfl⟩
    | drainWait hacq => exact ⟨hk.1, Acquire.isAwait_of_step hacq hk.1.symm⟩
    | serving hserving => exact ⟨hserving.symm, rfl⟩
    | servingNow hserving => exact ⟨hserving.symm, rfl⟩
    | acquireWait hacq => exact ⟨hk.1, Acquire.isAwait_of_step hacq hk.1.symm⟩
    | _ => trivial
  | @readerGranted op => cases op <;> trivial
  | @resume next => cases next <;> trivial
  | _ => trivial

/-- A task that counts on its turn holds the ticket being served, so that no step of another task
moves the counter. -/
theorem Pc.KeepsTurn.of_step {i j : ℕ} {c' : Counters} {h' : Hand}
    (hI : TicketQueue.Inv s.shared.writerCounters s.writerHand)
    (hk : (s.tasks j).KeepsTurn s.shared.writer.currentServing)
    (h : HandStep s.shared.writerCounters (s.writerHand i) c' h' ∨ c' = s.shared.writerCounters) :
    (s.tasks j).KeepsTurn c'.serving := by
  have hle : s.shared.writer.currentServing ≤ c'.serving := by
    rcases h with h | rfl
    · exact h.serving_le
    · exact le_rfl
  have heq : ∀ {a : Slot}, a ≠ .guard →
      (s.writerHand j).slot a = some s.shared.writer.currentServing →
      c'.serving = s.shared.writer.currentServing := by
    intro a ha hj
    rcases h with h | rfl
    · exact hI.serving_eq_of_step ha hj h
    · rfl
  generalize hpc : s.tasks j = pc at hk
  cases pc with
  | acquireWriter op t wait => cases wait with
    | drainRemove c => exact le_trans hk hle
    | drainAcquire c acq =>
      refine ⟨?_, hk.2⟩
      rw [heq (a := .adopted) (by decide) (by rw [← hk.1, Conversation.writerHand, hpc]; rfl)]
      exact hk.1
    | acquire acq =>
      refine ⟨?_, hk.2⟩
      rw [heq (a := .own) (by decide) (by rw [← hk.1, Conversation.writerHand, hpc]; rfl)]
      exact hk.1
    | _ => trivial
  | _ => trivial

/-- So it stays true in every run. -/
theorem keepsTurn (hs : (machine P).Reachable s) (i : ℕ) :
    (s.tasks i).KeepsTurn s.shared.writer.currentServing := by
  refine hs.invariant
    (I := fun s => ∀ i, (s.tasks i).KeepsTurn s.shared.writer.currentServing)
    (fun _ => trivial) (fun {s a s'} hs hk _ h => ?_) i
  have hI := ticketInv hs
  cases a with
  | arrive bytes =>
    obtain rfl := Option.some.inj h
    exact hk
  | task i e =>
    obtain ⟨pc', hst, htasks⟩ := step_task h
    refine (forall_tasks htasks).mpr
      ⟨hst.keepsTurn (fun t ht => (hI.writer.pool_range ht).1) (hk i), fun j _ => ?_⟩
    exact (hk j).of_step hI.writer ((hst.writer (hI.single i)).imp_right And.left)

/-! ## Lost tickets

The ticket of a future that is dropped while it waits for the writer is nobody's. All other steps
keep the tickets owned, so that this is the exact condition: a run has lost a ticket if and only
if it contains such a step. -/

/-- Tickets are forgotten on a poisoned session only. -/
theorem forgetsPoisoned_reachable (hs : (machine P).Reachable s) (i : ℕ) :
    (s.tasks i).ForgetsPoisoned s.shared.poisoned := by
  refine hs.invariant (I := fun s => ∀ i, (s.tasks i).ForgetsPoisoned s.shared.poisoned)
    (fun _ => trivial) (fun {s a s'} _ hI _ h => ?_) i
  cases a with
  | arrive bytes =>
    obtain rfl := Option.some.inj h
    exact hI
  | task i e =>
    obtain ⟨pc', hst, htasks⟩ := step_task h
    exact (forall_tasks htasks).mpr
      ⟨hst.forgetsPoisoned (hI i), fun j _ => (hI j).mono hst.poisoned⟩

/-- Inside `acquire_writer`. -/
def Pc.inAcquireWriter : Pc V → Bool
  | acquireWriter _ _ _ => true
  | _ => false

/-- There it has an operation and a ticket. -/
theorem Pc.eq_of_inAcquireWriter {pc : Pc V} (h : pc.inAcquireWriter = true) :
    ∃ op t wait, pc = acquireWriter op t wait := by
  cases pc with
  | acquireWriter op t wait => exact ⟨op, t, wait, rfl⟩
  | _ => cases h

/-- Every writer ticket that is still to be served is in the hands of a task or of the automatic
failures, unless the session is poisoned. -/
def TicketsOwned (s : Conversation V) : Prop :=
  s.shared.poisoned = false → ∀ t, s.shared.writer.currentServing ≤ t →
    t < s.shared.writer.nextTicket → t ∈ s.shared.autoFailures ∨
      ∃ i, t ∈ (s.tasks i).writerTickets ∨ (s.tasks i).adoptedTicket = some t ∨
        t ∈ (s.tasks i).writerGuards

/-- A future is dropped that is suspended in `acquire_writer` of a session that is not poisoned. -/
def CancelsWaitingWriter (s : Conversation V) : Action → Prop
  | .task i .cancel => s.shared.poisoned = false ∧ (s.tasks i).inAcquireWriter = true
  | _ => False

/-- At most one ticket is the first one. -/
theorem mem_iff_head? {l : List ℕ} (hl : l.length ≤ 1) (t : ℕ) :
    t ∈ l ↔ l.head? = some t := by
  match l, hl with
  | [], _ => simp
  | [u], _ => simp [eq_comm]

/-- Ownership is coverage of the writer queue. -/
theorem ticketsOwned_iff_covered (hs : (machine P).Reachable s) :
    TicketsOwned s ↔
      (s.shared.poisoned = false → Covered s.shared.writerCounters s.writerHand) := by
  refine imp_congr_right fun _ => forall_congr' fun t => imp_congr_right fun _ =>
    imp_congr_right fun _ => or_congr_right (exists_congr fun i => ?_)
  have hsingle := (ticketInv hs).single i
  rw [mem_iff_head? hsingle.writerTickets, mem_iff_head? hsingle.writerGuards]
  constructor
  · rintro (h | h | h)
    · exact ⟨.own, h⟩
    · exact ⟨.adopted, h⟩
    · exact ⟨.guard, h⟩
  · rintro ⟨a, h⟩
    cases a with
    | own => exact Or.inl h
    | adopted => exact Or.inr (Or.inl h)
    | guard => exact Or.inr (Or.inr h)

/-- What a cancelled future in `acquire_writer` held and no longer holds. -/
theorem Pc.Steps.lost_of_cancel {sh sh' : Shared} {op : WriteOp} {t : ℕ} {wait : WriterWait}
    {pc' : Pc V} (h : (Pc.acquireWriter op t wait).Steps P sh .cancel sh' pc') :
    sh'.poisoned = sh.poisoned ∧ sh'.writerCounters = sh.writerCounters ∧
      pc'.writerHand.own = none ∧ pc'.writerHand.adopted = none ∧
      pc'.writerHand.guard = (Pc.acquireWriter op t wait : Pc V).writerHand.guard := by
  cases h with
  | acquireWriter hwait => cases hwait <;> exact ⟨rfl, rfl, rfl, rfl, rfl⟩

/-- The ticket of a cancelled writer is nobody's. -/
theorem not_ticketsOwned_of_cancel {a : Action} (hs : (machine P).Reachable s)
    (hcancel : CancelsWaitingWriter s a) (h : s.step P a = some s') : ¬ TicketsOwned s' := by
  rw [ticketsOwned_iff_covered (P := P) (.step hs trivial h)]
  match a, hcancel with
  | .task i .cancel, ⟨hp, hwait⟩ =>
    obtain ⟨op, t, wait, hpc⟩ := Pc.eq_of_inAcquireWriter hwait
    obtain ⟨pc', hst, htasks⟩ := step_task h
    rw [hpc] at hst
    obtain ⟨hp', hc, hown, hadopted, hguard⟩ := hst.lost_of_cancel
    have hI := (ticketInv hs).writer
    have hi : (s.writerHand i).slot .own = some t := by
      simp [writerHand, hpc, Pc.writerHand, Hand.slot, Pc.writerTickets]
    rw [writerHand_update htasks]
    refine fun hcov => Covered.not_of_lost hI hi (fun b => ?_) (hc ▸ hcov (hp'.trans hp))
    cases b with
    | own => simp [Hand.slot, hown]
    | adopted => simp [Hand.slot, hadopted]
    | guard =>
      intro hg
      have hg' : (s.writerHand i).slot .guard = some t := by
        rw [← hg, Hand.slot, Hand.slot, hguard, writerHand, hpc]
      exact absurd (hI.unique hi hg').2 (by decide)

/-- Every other step keeps the tickets owned. -/
theorem TicketsOwned.step {a : Action} (hs : (machine P).Reachable s) (hC : TicketsOwned s)
    (hok : ¬ CancelsWaitingWriter s a) (h : s.step P a = some s') : TicketsOwned s' := by
  have hI := ticketInv hs
  rw [ticketsOwned_iff_covered hs] at hC
  rw [ticketsOwned_iff_covered (P := P) (.step hs trivial h)]
  cases a with
  | arrive bytes =>
    obtain rfl := Option.some.inj h
    exact hC
  | task i e =>
    obtain ⟨pc', hst, htasks⟩ := step_task h
    rw [writerHand_update htasks]
    intro hp'
    have hp : s.shared.poisoned = false := by
      by_contra hne
      rw [hst.poisoned (Bool.eq_true_of_not_eq_false hne)] at hp'
      cases hp'
    rcases hst.writer (hI.single i) with hw | ⟨-, -, hlose⟩
    · exact Covered.step hI.writer (hC hp) hw
    · generalize hpc : s.tasks i = pc at hlose
      cases hlose with
      | cancelled => exact absurd ⟨hp, by rw [hpc]; rfl⟩ hok
      | refused hpoison => exact absurd hpoison (by simp [hp])
      | forgotten =>
        have hf := forgetsPoisoned_reachable hs i
        rw [hpc] at hf
        exact absurd hf.1 (by simp [hp])

/-- **No writer ticket is lost exactly as long as no waiting writer is cancelled.** In a run, every
state visited has all its outstanding writer tickets owned if and only if no step drops a future
that is suspended in `acquire_writer` while the session is not poisoned. -/
theorem ticketsOwned_iff {l : List (Conversation V × Action)} (h : (machine P).Path l s) :
    ((∀ x ∈ l, TicketsOwned x.1) ∧ TicketsOwned s) ↔ ∀ x ∈ l, ¬ CancelsWaitingWriter x.1 x.2 :=
  h.forall_iff (fun _ _ _ ht => absurd ht (Nat.not_lt_zero _))
    fun hs hC hst => ⟨fun hC' hcancel => not_ticketsOwned_of_cancel hs.reachable hcancel hst hC',
      fun hok => hC.step hs.reachable hok hst⟩

theorem waitingRun_ticketsOwned_iff :
    ∃ s, (machine .empty).exec initial waitingRun = some s ∧
      (((∀ x ∈ (machine .empty).trace initial waitingRun, TicketsOwned x.1) ∧ TicketsOwned s) ↔
        ∀ x ∈ (machine .empty).trace initial waitingRun, ¬ CancelsWaitingWriter x.1 x.2) := by
  obtain ⟨s, hexec⟩ := Option.isSome_iff_exists.mp
    (show ((machine .empty).exec initial waitingRun).isSome = true by decide)
  exact ⟨s, hexec, ticketsOwned_iff (.of_exec hexec)⟩

/-- When the waiting task is cancelled, nobody holds ticket `1`, on a session that is not
poisoned. -/
theorem waitingRun_cancel_not_ticketsOwned :
    ∃ s, (machine .empty).exec initial (waitingRun ++ [.task 1 .cancel]) = some s ∧
      ¬ TicketsOwned s := by
  obtain ⟨s, s', hs, hcancel, hst, hexec⟩ := Machine.exists_exec_snoc (M := machine .empty)
    waitingRun (.task 1 .cancel)
    (p := fun s => !s.shared.poisoned && (s.tasks 1).inAcquireWriter) (by decide)
  simp only [Bool.and_eq_true, Bool.not_eq_true'] at hcancel
  exact ⟨s', hexec, not_ticketsOwned_of_cancel (Machine.reach_of_exec .init hs)
    (a := .task 1 .cancel) hcancel hst⟩

end Conversation

end Dssh
